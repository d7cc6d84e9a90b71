import ObjectInit.Proofs.Hierarchy.Paths

/-! # The order of a hierarchy

If no inheritance path is longer than what is followed, the known frames are ordered with the root
on top. Interfaces only inherit from interfaces, so the classes above a frame form a chain.
-/

namespace ObjectInit.Hierarchy

variable {h : Hierarchy}

/-! ## The root -/

theorem Reachable.node?_root (hr : h.Reachable) :
    ∃ name, h.node? root = some ⟨name, none, [], false, false⟩ := by
  refine hr.invariant (P := fun h => ∃ name, h.node? root = some ⟨name, none, [], false, false⟩)
    (fun name => ⟨name, rfl⟩) fun h n hroot _ => ?_
  obtain ⟨name, hname⟩ := hroot
  exact ⟨name, node?_grow_of_node? n hname⟩

theorem Reachable.knows_root (hr : h.Reachable) : h.knows root = true := by
  obtain ⟨name, hn⟩ := hr.node?_root
  unfold knows
  rw [hn, Option.isSome_some]

theorem Reachable.isInterface_root (hr : h.Reachable) : h.isInterface root = false := by
  obtain ⟨name, hn⟩ := hr.node?_root
  rw [isInterface_of_node? hn]

theorem Reachable.isSubtype_root (hr : h.Reachable) {a : Frame} (known : h.knows a = true) :
    h.isSubtype a root = true := isSubtype_iff.mpr ⟨known, hr.knows_root, .inl rfl⟩

/-! ## Paths within the limit -/

def Shallow (h : Hierarchy) : Prop := ∀ n f g, h.Inherits n f g → n ≤ depthLimit

theorem ParentsFirst.shallow (hh : h.ParentsFirst) (small : h.nodes.size ≤ depthLimit) :
    h.Shallow := by
  intro n f g path
  have hle := hh.index_add_le path
  cases path with
  | refl => exact Nat.zero_le _
  | @step n f p g parent rest =>
      have hknown := knows_iff.mp (knows_of_mem_parents parent)
      omega

theorem Shallow.isSubtype_iff (hs : h.Shallow) {a b : Frame} :
    h.isSubtype a b = true ↔
      h.knows a = true ∧ h.knows b = true ∧ (b = root ∨ ∃ n, h.Inherits n a b) := by
  rw [Hierarchy.isSubtype_iff]
  refine and_congr_right fun _ => and_congr_right fun _ => or_congr_right ⟨?_, ?_⟩
  · intro ⟨n, _, path⟩
    exact ⟨n, path⟩
  · intro ⟨n, path⟩
    exact ⟨n, hs n a b path, path⟩

/-! ## The partial order -/

theorem isSubtype_refl {a : Frame} (known : h.knows a = true) : h.isSubtype a a = true :=
  isSubtype_iff.mpr ⟨known, known, .inr ⟨0, Nat.zero_le _, .refl a⟩⟩

theorem knows_of_isSubtype {a b : Frame} (hab : h.isSubtype a b = true) :
    h.knows a = true ∧ h.knows b = true := by
  obtain ⟨ha, hb, -⟩ := isSubtype_iff.mp hab
  exact ⟨ha, hb⟩

theorem ParentsFirst.isSubtype_antisymm (hh : h.ParentsFirst) {a b : Frame}
    (hab : h.isSubtype a b = true) (hba : h.isSubtype b a = true) : a = b := by
  have hle := hh.index_le_of_isSubtype hab
  have hge := hh.index_le_of_isSubtype hba
  exact congrArg Frame.mk (Nat.le_antisymm hge hle)

/-- Two steps up that do not end at the root make one path, however long. -/
theorem ParentsFirst.exists_path_of_isSubtype (hh : h.ParentsFirst) {a b c : Frame}
    (hab : h.isSubtype a b = true) (hbc : h.isSubtype b c = true) :
    c = root ∨ ∃ n, h.Inherits n a c := by
  obtain ⟨-, -, hab⟩ := isSubtype_iff.mp hab
  obtain ⟨-, -, hc | ⟨n, -, second⟩⟩ := isSubtype_iff.mp hbc
  · exact .inl hc
  · obtain rfl | ⟨m, -, first⟩ := hab
    · have hle := hh.index_add_le second
      have hzero : c.index = 0 := Nat.le_zero.mp (Nat.le_trans (Nat.le_add_right _ _) hle)
      exact .inl (congrArg Frame.mk hzero)
    · exact .inr ⟨m + n, first.trans second⟩

theorem ParentsFirst.isSubtype_trans (hh : h.ParentsFirst) (hs : h.Shallow) {a b c : Frame}
    (hab : h.isSubtype a b = true) (hbc : h.isSubtype b c = true) : h.isSubtype a c = true :=
  hs.isSubtype_iff.mpr ⟨(knows_of_isSubtype hab).1, (knows_of_isSubtype hbc).2,
    hh.exists_path_of_isSubtype hab hbc⟩

/-! ## Classes and interfaces -/

/-- Only interfaces are inherited from as interfaces, and an interface has no superclass. -/
structure Kinded (h : Hierarchy) : Prop where
  interfaces {f g : Frame} {n : ClassNode} :
    h.node? f = some n → g ∈ n.interfaces → h.isInterface g = true
  superclass {f : Frame} {n : ClassNode} :
    h.node? f = some n → n.isInterface = true → n.superclass = none

theorem isInterface_grow (h : Hierarchy) (n : ClassNode) {f : Frame}
    (hf : h.isInterface f = true) : (h.grow n).isInterface f = true := by
  obtain ⟨k, hk, hi⟩ := isInterface_iff.mp hf
  exact isInterface_iff.mpr ⟨k, node?_grow_of_node? n hk, hi⟩

namespace Kinded

theorem withRoot (name : Name) : (withRoot name).Kinded := by
  refine ⟨?_, ?_⟩
  · intro f g n hn hg
    rw [(eq_of_node?_withRoot hn).2] at hg
    cases hg
  · intro f n hn hi
    rw [(eq_of_node?_withRoot hn).2]

theorem grow {n : ClassNode} (hk : h.Kinded) (hn : h.Admits n) : (h.grow n).Kinded := by
  refine ⟨?_, ?_⟩
  · intro f g k hnode hg
    apply isInterface_grow
    rw [node?_grow] at hnode
    split at hnode
    · cases hnode
      exact isInterface_iff.mpr (interfaceFault?_eq_none_iff.mp (hn.interfaces hg))
    · exact hk.interfaces hnode hg
  · intro f k hnode hi
    rw [node?_grow] at hnode
    split at hnode
    · cases hnode
      obtain ⟨hclass, -⟩ | ⟨-, -, hsuper⟩ := hn.shape
      · rw [hi] at hclass
        cases hclass
      · exact hsuper
    · exact hk.superclass hnode hi

theorem class_of_parent (hk : h.Kinded) {f p : Frame} (parent : p ∈ h.parents f)
    (hp : h.isInterface p = false) :
    (h.node? f).bind (·.superclass) = some p ∧ h.isInterface f = false := by
  obtain ⟨n, hn, hsuper | hinterface⟩ := mem_parents_iff.mp parent
  · refine ⟨Option.bind_eq_some_iff.mpr ⟨n, hn, hsuper⟩, ?_⟩
    rw [isInterface_of_node? hn]
    cases hi : n.isInterface with
    | false => rfl
    | true =>
        rw [hk.superclass hn hi] at hsuper
        cases hsuper
  · rw [hk.interfaces hn hinterface] at hp
    cases hp

theorem isInterface_of_inherits (hk : h.Kinded) {n : Nat} {f g : Frame}
    (path : h.Inherits n f g) (hg : h.isInterface g = false) : h.isInterface f = false := by
  induction path with
  | refl f => exact hg
  | step parent rest ih => exact (hk.class_of_parent parent (ih hg)).2

theorem inherits_total (hk : h.Kinded) {m n : Nat} {f a b : Frame} (first : h.Inherits m f a)
    (second : h.Inherits n f b) (ha : h.isInterface a = false) (hb : h.isInterface b = false) :
    (∃ k, h.Inherits k a b) ∨ ∃ k, h.Inherits k b a := by
  induction first generalizing n with
  | refl f => exact .inl ⟨n, second⟩
  | @step m f p a parent rest ih =>
      cases second with
      | refl => exact .inr ⟨m + 1, .step parent rest⟩
      | @step n _ q _ parent' rest' =>
          -- Both paths start with the edge to the one superclass that the frame has.
          have hp := (hk.class_of_parent parent (hk.isInterface_of_inherits rest ha)).1
          have hq := (hk.class_of_parent parent' (hk.isInterface_of_inherits rest' hb)).1
          obtain rfl : p = q := Option.some.inj (hp.symm.trans hq)
          exact ih rest' ha

end Kinded

theorem Reachable.kinded (hr : h.Reachable) : h.Kinded :=
  hr.invariant Kinded.withRoot fun _ _ => Kinded.grow

theorem Reachable.eq_root_of_isInterface (hr : h.Reachable) {a b : Frame}
    (hab : h.isSubtype a b = true) (ha : h.isInterface a = true) (hb : h.isInterface b = false) :
    b = root := by
  obtain ⟨-, -, hroot | ⟨n, -, path⟩⟩ := isSubtype_iff.mp hab
  · exact hroot
  · rw [hr.kinded.isInterface_of_inherits path hb] at ha
    cases ha

theorem Reachable.isSubtype_total (hr : h.Reachable) (hs : h.Shallow) {f a b : Frame}
    (hfa : h.isSubtype f a = true) (hfb : h.isSubtype f b = true)
    (ha : h.isInterface a = false) (hb : h.isInterface b = false) :
    h.isSubtype a b = true ∨ h.isSubtype b a = true := by
  obtain ⟨-, ka, hfa⟩ := hs.isSubtype_iff.mp hfa
  obtain ⟨-, kb, hfb⟩ := hs.isSubtype_iff.mp hfb
  obtain rfl | ⟨m, first⟩ := hfa
  · exact .inr (hr.isSubtype_root kb)
  · obtain rfl | ⟨n, second⟩ := hfb
    · exact .inl (hr.isSubtype_root ka)
    · obtain hab | hba := hr.kinded.inherits_total first second ha hb
      · exact .inl (hs.isSubtype_iff.mpr ⟨ka, kb, .inr hab⟩)
      · exact .inr (hs.isSubtype_iff.mpr ⟨kb, ka, .inr hba⟩)

end ObjectInit.Hierarchy
