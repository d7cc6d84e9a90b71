import ObjectInit.Proofs.Hierarchy.Bounds
import ObjectInit.Proofs.Hierarchy.WellFormed

/-! # Hierarchies without interfaces

Every class but the root has its superclass as the only parent. So two classes have a lowest common
superclass, and classes with a common subclass are one above the other.
-/

namespace ObjectInit.Hierarchy

/-- The hierarchies that a root and any additions of classes without interfaces lead to. -/
inductive SingleInheritance : Hierarchy → Prop
  | withRoot (name : Name) : SingleInheritance (withRoot name)
  | addClass {h : Hierarchy} (name : Name) (superclass : Option Frame) (isFinal : Bool) :
      SingleInheritance h → SingleInheritance (h.addClass name superclass [] isFinal).2

/-- A chain of so many superclasses leads from the first frame to the second. -/
inductive Extends (h : Hierarchy) : Nat → Frame → Frame → Prop
  | refl (f : Frame) : Extends h 0 f f
  | step {n : Nat} {f p g : Frame} (superclass : (h.node? f).bind (·.superclass) = some p)
      (rest : Extends h n p g) : Extends h (n + 1) f g

/-- Both frames extend the third, which itself extends whatever else they both extend. -/
def IsLowestCommonSuperclass (h : Hierarchy) (a b c : Frame) : Prop :=
  (∃ n, h.Extends n a c) ∧ (∃ n, h.Extends n b c) ∧
    ∀ d, (∃ n, h.Extends n a d) → (∃ n, h.Extends n b d) → ∃ n, h.Extends n c d

variable {h : Hierarchy}

namespace SingleInheritance

theorem reachable (tree : h.SingleInheritance) : h.Reachable := by
  induction tree with
  | withRoot name => exact .withRoot name
  | addClass name superclass isFinal _ ih => exact .addClass name superclass [] isFinal ih

theorem isInterface_eq_false (tree : h.SingleInheritance) (f : Frame) :
    h.isInterface f = false := by
  induction tree with
  | withRoot name =>
      refine Bool.eq_false_iff.mpr fun hf => ?_
      obtain ⟨n, hn, hi⟩ := isInterface_iff.mp hf
      rw [(eq_of_node?_withRoot hn).2] at hi
      cases hi
  | @addClass h name superclass isFinal _ ih =>
      rcases addClass_cases h name superclass [] isFinal with ⟨e, he⟩ | ⟨-, he⟩
      · rw [he]
        exact ih
      · rw [he]
        unfold isInterface
        rw [node?_grow]
        split
        · rfl
        · exact ih

/-! ## Chains of superclasses -/

theorem mem_parents_iff_superclass (tree : h.SingleInheritance) {f p : Frame} :
    p ∈ h.parents f ↔ (h.node? f).bind (·.superclass) = some p := by
  constructor
  · intro parent
    exact (tree.reachable.kinded.class_of_parent parent (tree.isInterface_eq_false p)).1
  · intro superclass
    obtain ⟨n, hn, hp⟩ := Option.bind_eq_some_iff.mp superclass
    exact mem_parents_iff.mpr ⟨n, hn, .inl hp⟩

theorem extends_iff_inherits (tree : h.SingleInheritance) {n : Nat} {f g : Frame} :
    h.Extends n f g ↔ h.Inherits n f g := by
  constructor
  · intro chain
    induction chain with
    | refl f => exact .refl f
    | step superclass _ ih => exact .step (tree.mem_parents_iff_superclass.mpr superclass) ih
  · intro path
    induction path with
    | refl f => exact .refl f
    | step parent _ ih => exact .step (tree.mem_parents_iff_superclass.mp parent) ih

theorem exists_extends_root (tree : h.SingleInheritance) {f : Frame} (known : h.knows f = true) :
    ∃ n, h.Extends n f root := by
  induction hi : f.index using Nat.strongRecOn generalizing f with
  | ind i ih =>
      by_cases hroot : f = root
      · exact ⟨0, hroot ▸ .refl f⟩
      · obtain ⟨n, hn⟩ := Option.isSome_iff_exists.mp known
        have hclass : n.isInterface = false := by
          rw [← isInterface_of_node? hn]
          exact tree.isInterface_eq_false f
        obtain ⟨p, k, hp, hlt, hk, -⟩ := tree.reachable.wellFormed.superclass hn hclass hroot
        obtain ⟨m, rest⟩ := ih p.index (hi ▸ hlt) (Option.isSome_iff_exists.mpr ⟨k, hk⟩) rfl
        exact ⟨m + 1, .step (Option.bind_eq_some_iff.mpr ⟨n, hn, hp⟩) rest⟩

variable (tree : h.SingleInheritance) (short : ∀ n f g, h.Extends n f g → n ≤ depthLimit)

include tree short

theorem shallow : h.Shallow := fun n f g path => short n f g (tree.extends_iff_inherits.mpr path)

theorem isSubtype_iff {a b : Frame} :
    h.isSubtype a b = true ↔ h.knows a = true ∧ ∃ n, h.Extends n a b := by
  have hr := tree.reachable
  rw [(tree.shallow short).isSubtype_iff]
  constructor
  · rintro ⟨known, -, rfl | ⟨n, path⟩⟩
    · exact ⟨known, tree.exists_extends_root known⟩
    · exact ⟨known, n, tree.extends_iff_inherits.mpr path⟩
  · rintro ⟨known, n, chain⟩
    have path := tree.extends_iff_inherits.mp chain
    exact ⟨known, hr.parentsFirst.knows_of_inherits path known, .inr ⟨n, path⟩⟩

/-! ## Bounds -/

variable {a b c : Frame}

theorem isLeastAbove_iff (ha : h.knows a = true) (hb : h.knows b = true) :
    h.oracle.IsLeastAbove a b c ↔ h.IsLowestCommonSuperclass a b c := by
  have above : ∀ d, (h.isSubtype a d = true ↔ ∃ n, h.Extends n a d) ∧
      (h.isSubtype b d = true ↔ ∃ n, h.Extends n b d) := by
    intro d
    simp only [tree.isSubtype_iff short, ha, hb, true_and, and_self]
  show (h.isSubtype a c = true ∧ h.isSubtype b c = true ∧ ∀ d, h.isSubtype a d = true →
    h.isSubtype b d = true → h.isSubtype c d = true) ↔ _
  unfold IsLowestCommonSuperclass
  simp only [above]
  refine and_congr_right fun hac => and_congr_right fun _ => ?_
  have hc := (knows_of_isSubtype ((above c).1.mpr hac)).2
  simp only [tree.isSubtype_iff short, hc, true_and]

theorem isLeastAbove_frameLub (ha : h.knows a = true) (hb : h.knows b = true) :
    h.oracle.IsLeastAbove a b (h.oracle.frameLub a b) := by
  have hs := tree.shallow short
  obtain ⟨hal, hbl⟩ := tree.reachable.le_frameLub ha hb
  refine ⟨hal, hbl, fun d had hbd => ?_⟩
  -- Whatever is above both is a class, so it leaves the bound below itself.
  exact (tree.reachable.frameLub_isSubtype_iff hs had hbd).mpr
    (.inr ⟨d, tree.isInterface_eq_false d, had, hbd, isSubtype_refl (knows_of_isSubtype had).2⟩)

theorem exists_isGreatestBelow (hca : h.isSubtype c a = true) (hcb : h.isSubtype c b = true) :
    ∃ m, h.oracle.IsGreatestBelow a b m := by
  rcases tree.reachable.isSubtype_total (tree.shallow short) hca hcb
    (tree.isInterface_eq_false a) (tree.isInterface_eq_false b) with hab | hba
  · exact ⟨a, isGreatestBelow_of_isSubtype hab⟩
  · exact ⟨b, (isGreatestBelow_of_isSubtype hba).symm⟩

end SingleInheritance

end ObjectInit.Hierarchy
