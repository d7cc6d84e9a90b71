import ObjectInit.Proofs.Hierarchy.SingleInheritance
import ObjectInit.Proofs.Qualifier.Hierarchy

/-! # The lattice over a hierarchy without interfaces

The qualifiers over known frames are a system of their own. It is a bounded lattice wherever frames
have the bounds that qualifiers ask for, and in a tree of classes they do.
-/

namespace ObjectInit.Qualifier

variable {h : Hierarchy}

/-! ## Bounds stay over known frames -/

theorem lub_over (hr : h.Reachable) {a b : Qualifier} (ha : a.Over h) (hb : b.Over h) :
    (lub h.oracle a b).Over h := by
  unfold lub
  split
  · exact hb
  · split
    · exact ha
    · intro m hm
      have bounded : ∀ f ∈ a.frame?, ∀ g ∈ b.frame?, h.knows (h.oracle.frameLub f g) = true :=
        fun f hf g hg => (Hierarchy.knows_of_isSubtype (hr.le_frameLub (ha f hf) (hb g hg)).1).2
      cases a <;> cases b <;> cases hm
      all_goals first
        | exact hr.knows_root
        | exact ha _ rfl
        | exact hb _ rfl
        | exact bounded _ rfl _ rfl

theorem knows_of_frameGlb? {f g m : Frame} (hf : h.knows f = true)
    (hm : h.oracle.frameGlb? f g = some m) : h.knows m = true := by
  rcases TypeOracle.frameLe_iff.mp (TypeOracle.frameGlb?_le hm).1 with rfl | hsub
  · exact hf
  · exact (Hierarchy.knows_of_isSubtype hsub).1

theorem glb_over {a b : Qualifier} (ha : a.Over h) (hb : b.Over h) :
    (glb h.oracle a b).Over h := by
  unfold glb
  split
  · exact ha
  · split
    · exact hb
    · intro m hm
      -- Only two qualifiers with frames leave a bound with a frame.
      cases a <;> cases b
      all_goals first
        | cases hm
        | exact knows_of_frameGlb? (ha _ rfl) ((frame?_glbApart rfl rfl).symm.trans hm)

theorem over_closed (hr : h.Reachable) : h.oracle.qualifiers.Closed (Over h) where
  top := by
    intro f hf
    cases hf
    exact hr.knows_root
  bottom := by
    intro f hf
    cases hf
  lub := lub_over hr
  glb := glb_over

/-! ## The laws -/

/-- Where any two known frames have a least frame above them, and a greatest below them if there is
any below both, the qualifiers over known frames are a bounded lattice. -/
theorem isBoundedLattice_over (hr : h.Reachable) (hs : h.Shallow)
    (least : ∀ f g, h.knows f = true → h.knows g = true →
      h.oracle.IsLeastAbove f g (h.oracle.frameLub f g))
    (greatest : ∀ f g k, h.isSubtype k f = true → h.isSubtype k g = true →
      ∃ m, h.oracle.IsGreatestBelow f g m) :
    (h.oracle.qualifiers.restrict (over_closed hr)).IsBoundedLattice := by
  have below : ∀ {q : {q : Qualifier // q.Over h}} {f g : Frame}, f ∈ q.1.frame? →
      (h.oracle.frameLe f g = true ↔ h.isSubtype f g = true) := by
    intro q f g hf
    rw [Hierarchy.frameLe_eq_isSubtype (q.2 f hf)]
  have root : ∀ {q : {q : Qualifier // q.Over h}}, ∀ f ∈ q.1.frame?,
      h.oracle.frameLe f h.oracle.root = true :=
    fun {q} f hf => (below hf).mpr (hr.isSubtype_root (q.2 f hf))
  refine
    { le_refl := fun a => le_refl h.oracle a.1
      le_antisymm := fun {a b} hab hba => Subtype.ext (le_antisymm ?antisymm hab hba)
      le_trans := fun {a b c} hab hbc => le_trans ?trans hab hbc
      bottom_le := fun a => bottom_le h.oracle a.1
      le_top := fun a => le_top root
      le_lub_left := fun a b => (le_lub root root).1
      le_lub_right := fun a b => (le_lub root root).2
      lub_le := fun {a b c} hac hbc => lub_le ?least hac hbc
      glb_le_left := fun a b => (glb_le h.oracle a.1 b.1).1
      glb_le_right := fun a b => (glb_le h.oracle a.1 b.1).2
      le_glb := fun {a b c} hca hcb => le_glb ?greatest hca hcb }
  case antisymm =>
    intro f hf g hg hfg hgf
    exact hr.parentsFirst.isSubtype_antisymm ((below hf).mp hfg) ((below hg).mp hgf)
  case trans =>
    intro f hf g hg k hk hfg hgk
    exact (below hf).mpr
      (hr.parentsFirst.isSubtype_trans hs ((below hf).mp hfg) ((below hg).mp hgk))
  case least =>
    intro f hf g hg k hk hfk hgk
    have hlub := least f g (a.2 f hf) (b.2 g hg)
    rw [Hierarchy.frameLe_eq_isSubtype (Hierarchy.knows_of_isSubtype hlub.1).2]
    exact hlub.2.2 k ((below hf).mp hfk) ((below hg).mp hgk)
  case greatest =>
    intro f hf g hg k hk hkf hkg
    have hkf := (below hk).mp hkf
    have hkg := (below hk).mp hkg
    obtain ⟨m, hm⟩ := greatest f g k hkf hkg
    exact ⟨m, (hr.frameGlb?_eq_some_iff hs (a.2 f hf) (b.2 g hg)).mpr hm,
      (below hk).mpr (hm.2.2 k hkf hkg)⟩

theorem frame?_lub_of_apart {a b : Qualifier} {f g : Frame} (hf : f ∈ a.frame?)
    (hg : g ∈ b.frame?) (hfk : h.knows f = true) (hgk : h.knows g = true)
    (apart : h.oracle.Apart f g) :
    (lub h.oracle a b).frame? = some (h.oracle.frameLub f g) := by
  have hab : ¬le h.oracle a b = true := by
    intro hab
    have hfg := frameLe_of_le hf hg hab
    rw [Hierarchy.frameLe_eq_isSubtype hfk] at hfg
    exact Bool.false_ne_true (apart.1.symm.trans hfg)
  have hba : ¬le h.oracle b a = true := by
    intro hba
    have hgf := frameLe_of_le hg hf hba
    rw [Hierarchy.frameLe_eq_isSubtype hgk] at hgf
    exact Bool.false_ne_true (apart.2.symm.trans hgf)
  unfold lub
  rw [if_neg hab, if_neg hba]
  exact frame?_lubApart hf hg

/-- In a tree of classes none of which has more superclasses than are followed, the qualifiers over
known frames are a bounded lattice: their bounds are commutative and associative and absorb each
other. The upper bound of two whose frames are not ordered has the lowest common superclass of the
frames, and the bound of a list does not depend on the order of its members. -/
theorem lattice_over_single_inheritance (tree : h.SingleInheritance)
    (short : ∀ n f g, h.Extends n f g → n ≤ Hierarchy.depthLimit) :
    (∃ closed : h.oracle.qualifiers.Closed (Over h),
        (h.oracle.qualifiers.restrict closed).IsBoundedLattice) ∧
      ((∀ a b, a.Over h → b.Over h →
        lub h.oracle a b = lub h.oracle b a ∧ glb h.oracle a b = glb h.oracle b a) ∧
      (∀ a b c, a.Over h → b.Over h → c.Over h →
        lub h.oracle (lub h.oracle a b) c = lub h.oracle a (lub h.oracle b c) ∧
          glb h.oracle (glb h.oracle a b) c = glb h.oracle a (glb h.oracle b c)) ∧
      ∀ a b, a.Over h → b.Over h →
        lub h.oracle a (glb h.oracle a b) = a ∧ glb h.oracle a (lub h.oracle a b) = a) ∧
      (∀ a b f g, a.Over h → b.Over h → f ∈ a.frame? → g ∈ b.frame? → h.oracle.Apart f g →
        ∃ m, (lub h.oracle a b).frame? = some m ∧ h.IsLowestCommonSuperclass f g m) ∧
      ∀ qs qs', (∀ q ∈ qs, q.Over h) → qs.Perm qs' →
        lubAll h.oracle qs = lubAll h.oracle qs' := by
  have lattice := isBoundedLattice_over tree.reachable (tree.shallow short)
    (fun f g => tree.isLeastAbove_frameLub short)
    fun f g k => tree.exists_isGreatestBelow short
  obtain ⟨comm, assoc, absorb, perm⟩ := QualifierSystem.laws_of_restrict lattice
  refine ⟨⟨_, lattice⟩, ⟨comm, assoc, absorb⟩, ?frame, perm⟩
  intro a b f g ha hb hf hg apart
  have hfk := ha f hf
  have hgk := hb g hg
  exact ⟨_, frame?_lub_of_apart hf hg hfk hgk apart,
    (tree.isLeastAbove_iff short hfk hgk).mp (tree.isLeastAbove_frameLub short hfk hgk)⟩

/-- Two classes below the root, and two that extend the first of them, one of these final. An
addition that would extend the final class is refused. -/
def forked : Hierarchy :=
  let first := ((Hierarchy.withRoot ⟨0⟩).addClass ⟨1⟩ none [] false).2
  let both := (first.addClass ⟨2⟩ none [] false).2
  let below := ((both.addClass ⟨3⟩ (some ⟨1⟩) [] false).2.addClass ⟨4⟩ (some ⟨1⟩) [] true).2
  (below.addClass ⟨5⟩ (some ⟨4⟩) [] false).2

theorem forked_singleInheritance : forked.SingleInheritance :=
  .addClass _ _ _ (.addClass _ _ _ (.addClass _ _ _ (.addClass _ _ _ (.addClass _ _ _
    (.withRoot _)))))

theorem forked_short : ∀ n f g, forked.Extends n f g → n ≤ Hierarchy.depthLimit := by
  intro n f g chain
  have hs := forked_singleInheritance.reachable.parentsFirst.shallow (by decide +kernel)
  exact hs n f g (forked_singleInheritance.extends_iff_inherits.mp chain)

theorem lattice_over_single_inheritance_of_forked :
    forked.SingleInheritance ∧ (∀ n f g, forked.Extends n f g → n ≤ Hierarchy.depthLimit) ∧
      forked.IsLowestCommonSuperclass ⟨3⟩ ⟨4⟩ ⟨1⟩ ∧
      lub forked.oracle (lub forked.oracle (under ⟨3⟩) (under ⟨4⟩)) initialized =
        lub forked.oracle (under ⟨3⟩) (lub forked.oracle (under ⟨4⟩) initialized) ∧
      glb forked.oracle (unknown ⟨2⟩) (lub forked.oracle (unknown ⟨2⟩) (under ⟨4⟩)) =
        unknown ⟨2⟩ ∧
      lubAll forked.oracle [under ⟨3⟩, initialized, under ⟨4⟩] =
        lubAll forked.oracle [initialized, under ⟨3⟩, under ⟨4⟩] := by
  have known : (under ⟨3⟩).Over forked ∧ (under ⟨4⟩).Over forked ∧ initialized.Over forked ∧
      (unknown ⟨2⟩).Over forked := by decide +kernel
  obtain ⟨third, fourth, plain, second⟩ := known
  obtain ⟨-, ⟨-, assoc, absorb⟩, frame, perm⟩ :=
    lattice_over_single_inheritance forked_singleInheritance forked_short
  obtain ⟨m, hm, lowest⟩ := frame (under ⟨3⟩) (under ⟨4⟩) ⟨3⟩ ⟨4⟩ third fourth rfl rfl
    ⟨by decide +kernel, by decide +kernel⟩
  have hbound : (lub forked.oracle (under ⟨3⟩) (under ⟨4⟩)).frame? = some ⟨1⟩ := by
    decide +kernel
  obtain rfl := Option.some.inj (hbound.symm.trans hm)
  refine ⟨forked_singleInheritance, forked_short, lowest,
    (assoc _ _ _ third fourth plain).1, (absorb _ _ second fourth).2, ?_⟩
  exact perm _ _ (by simp [third, fourth, plain]) (.swap ..)

end ObjectInit.Qualifier
