import ObjectInit.Proofs.Hierarchy.Bounds

/-! # What additions leave alone

No later entry is on a path from an earlier one, so paths, order, ancestors and upper bounds of
earlier frames stay. Bounds below them do not, for a later entry may inherit from both.
-/

namespace ObjectInit.Hierarchy

inductive Addition
  | ofClass (name : Name) (superclass : Option Frame) (interfaces : List Frame) (isFinal : Bool)
  | ofInterface (name : Name) (extended : List Frame)
deriving DecidableEq

def add (h : Hierarchy) : Addition → Except HierarchyError Frame × Hierarchy
  | .ofClass name superclass interfaces isFinal => h.addClass name superclass interfaces isFinal
  | .ofInterface name extended => h.addInterface name extended

/-- The hierarchy that follows several additions, the refused ones included. -/
def addAll (h : Hierarchy) (xs : List Addition) : Hierarchy := xs.foldl (fun h x => (h.add x).2) h

variable {h h' : Hierarchy}

theorem add_cases (h : Hierarchy) (x : Addition) :
    (∃ e, h.add x = (.error e, h)) ∨
      ∃ n, h.Admits n ∧ h.add x = (.ok ⟨h.nodes.size⟩, h.grow n) := by
  cases x with
  | ofClass name superclass interfaces isFinal =>
      rcases addClass_cases h name superclass interfaces isFinal with refused | ⟨hn, accepted⟩
      · exact .inl refused
      · exact .inr ⟨_, hn, accepted⟩
  | ofInterface name extended =>
      rcases addInterface_cases h name extended with refused | ⟨hn, accepted⟩
      · exact .inl refused
      · exact .inr ⟨_, hn, accepted⟩

theorem Reachable.add (hr : h.Reachable) (x : Addition) : (h.add x).2.Reachable := by
  cases x with
  | ofClass name superclass interfaces isFinal =>
      exact hr.addClass name superclass interfaces isFinal
  | ofInterface name extended => exact hr.addInterface name extended

theorem addAll_concat (h : Hierarchy) (xs : List Addition) (x : Addition) :
    h.addAll (xs ++ [x]) = ((h.addAll xs).add x).2 := by
  unfold addAll
  rw [List.foldl_append]
  rfl

theorem Reachable.addAll (hr : h.Reachable) (xs : List Addition) : (h.addAll xs).Reachable := by
  induction xs generalizing h with
  | nil => exact hr
  | cons x xs ih => exact ih (hr.add x)

theorem reachable_iff : h.Reachable ↔ ∃ name xs, (withRoot name).addAll xs = h := by
  constructor
  · intro hr
    induction hr with
    | withRoot name => exact ⟨name, [], rfl⟩
    | addClass name superclass interfaces isFinal _ ih =>
        obtain ⟨first, xs, rfl⟩ := ih
        exact ⟨first, xs ++ [.ofClass name superclass interfaces isFinal], addAll_concat _ _ _⟩
    | addInterface name extended _ ih =>
        obtain ⟨first, xs, rfl⟩ := ih
        exact ⟨first, xs ++ [.ofInterface name extended], addAll_concat _ _ _⟩
  · intro ⟨name, xs, same⟩
    rw [← same]
    exact (Reachable.withRoot name).addAll xs

/-! ## Earlier and later hierarchies -/

/-- Every entry of the first hierarchy is at its frame in the second. -/
def Precedes (h h' : Hierarchy) : Prop := ∀ f n, h.node? f = some n → h'.node? f = some n

theorem precedes_grow (h : Hierarchy) (n : ClassNode) : h.Precedes (h.grow n) :=
  fun _ _ => node?_grow_of_node? n

theorem precedes_add (h : Hierarchy) (x : Addition) : h.Precedes (h.add x).2 := by
  rcases h.add_cases x with ⟨e, refused⟩ | ⟨n, -, accepted⟩
  · rw [refused]
    exact fun _ _ hn => hn
  · rw [accepted]
    exact h.precedes_grow n

theorem precedes_addAll (h : Hierarchy) (xs : List Addition) : h.Precedes (h.addAll xs) := by
  induction xs generalizing h with
  | nil => exact fun _ _ hn => hn
  | cons x xs ih => exact fun f n hn => ih (h.add x).2 f n (h.precedes_add x f n hn)

namespace Precedes

variable {f a b : Frame}

section Entries

variable (hp : h.Precedes h')

include hp

theorem node?_eq (known : h.knows f = true) : h'.node? f = h.node? f := by
  obtain ⟨n, hn⟩ := Option.isSome_iff_exists.mp known
  rw [hn, hp f n hn]

theorem knows (known : h.knows f = true) : h'.knows f = true := by
  unfold Hierarchy.knows
  rw [hp.node?_eq known]
  exact known

theorem size_le : h.nodes.size ≤ h'.nodes.size := by
  refine Nat.le_of_not_lt fun hlt => ?_
  have known : h.knows ⟨h'.nodes.size⟩ = true := knows_iff.mpr hlt
  exact Nat.lt_irrefl _ (knows_iff.mp (hp.knows known))

theorem isInterface_eq (known : h.knows f = true) : h'.isInterface f = h.isInterface f := by
  unfold Hierarchy.isInterface
  rw [hp.node?_eq known]

theorem parents_eq (known : h.knows f = true) : h'.parents f = h.parents f := by
  unfold Hierarchy.parents
  rw [hp.node?_eq known]

theorem filter_frames {p p' : Frame → Bool} (same : ∀ f, h.knows f = true → p' f = p f)
    (later : ∀ f, h.knows f = false → p' f = false) : h'.frames.filter p' = h.frames.filter p := by
  obtain ⟨k, hk⟩ := Nat.exists_eq_add_of_le hp.size_le
  unfold frames
  rw [hk, List.range_add, List.map_append, List.filter_append]
  have old : ((List.range h.nodes.size).map Frame.mk).filter p' = h.frames.filter p :=
    List.filter_congr fun f hf => same f (mem_frames.mp hf)
  have new : (((List.range k).map (h.nodes.size + ·)).map Frame.mk).filter p' = [] := by
    refine List.filter_eq_nil_iff.mpr fun f hf => ?_
    obtain ⟨i, hi, rfl⟩ := List.mem_map.mp hf
    obtain ⟨j, -, rfl⟩ := List.mem_map.mp hi
    rw [later, Bool.false_eq_true]
    · exact not_false
    · rw [Bool.eq_false_iff, Ne, knows_iff]
      exact Nat.not_lt.mpr (Nat.le_add_right _ _)
  rw [old, new, List.append_nil]
  rfl

end Entries

/-! ## The order -/

section Order

variable (hp : h.Precedes h') (hr : h.Reachable)

include hp hr

theorem inherits_iff {n : Nat} (known : h.knows a = true) :
    h'.Inherits n a b ↔ h.Inherits n a b := by
  constructor
  · intro path
    induction path with
    | refl a => exact .refl a
    | @step n a p b parent rest ih =>
        rw [hp.parents_eq known] at parent
        exact .step parent (ih (hr.parentsFirst.knows_parent parent))
  · intro path
    induction path with
    | refl a => exact .refl a
    | @step n a p b parent rest ih =>
        have parent' := parent
        rw [← hp.parents_eq known] at parent'
        exact .step parent' (ih (hr.parentsFirst.knows_parent parent))

/-- No earlier frame is below a later one, so the order from an earlier frame up stays. -/
theorem isSubtype_eq (known : h.knows a = true) (b : Frame) :
    h'.isSubtype a b = h.isSubtype a b := by
  rw [Bool.eq_iff_iff, isSubtype_iff, isSubtype_iff]
  simp only [hp.inherits_iff hr known, known, hp.knows known, true_and]
  refine and_congr_left fun above => ⟨fun _ => ?_, hp.knows⟩
  rcases above with rfl | ⟨n, -, path⟩
  · exact hr.knows_root
  · exact hr.parentsFirst.knows_of_inherits path known

theorem contains_lineage_eq (known : h.knows a = true) (b : Frame) :
    (h'.lineage a).contains b = (h.lineage a).contains b := by
  rw [Bool.eq_iff_iff, contains_lineage known, contains_lineage (hp.knows known)]
  simp only [hp.inherits_iff hr known]

theorem ancestors_eq (known : h.knows a = true) : h'.ancestors a = h.ancestors a := by
  unfold Hierarchy.ancestors
  rw [if_pos known, if_pos (hp.knows known)]
  refine hp.filter_frames (fun f _ => hp.contains_lineage_eq hr known f) fun f unknown => ?_
  rw [hp.contains_lineage_eq hr known, Bool.eq_false_iff, Ne, contains_lineage known]
  rintro (rfl | ⟨n, -, path⟩)
  · exact Bool.false_ne_true (unknown.symm.trans hr.knows_root)
  · exact Bool.false_ne_true (unknown.symm.trans (hr.parentsFirst.knows_of_inherits path known))

/-! ## Bounds above -/

theorem commonAncestors_eq (ha : h.knows a = true) (hb : h.knows b = true) :
    h'.commonAncestors a b = h.commonAncestors a b := by
  unfold Hierarchy.commonAncestors
  rw [if_pos hb, if_pos (hp.knows hb), hp.ancestors_eq hr ha]
  exact List.filter_congr fun f _ => hp.contains_lineage_eq hr hb f

theorem lowestAncestors_eq (ha : h.knows a = true) (hb : h.knows b = true) :
    h'.lowestAncestors a b = h.lowestAncestors a b := by
  unfold lowestAncestors
  rw [hp.commonAncestors_eq hr ha hb, mostSpecific_eq_foremost, mostSpecific_eq_foremost]
  refine foremost_congr fun d hd c _ => ?_
  exact hp.isSubtype_eq hr (knows_of_isSubtype ((mem_commonAncestors ha hb).mp hd).1).2 c

theorem lowestClasses_eq (ha : h.knows a = true) (hb : h.knows b = true) :
    h'.lowestClasses a b = h.lowestClasses a b := by
  unfold lowestClasses
  rw [hp.lowestAncestors_eq hr ha hb]
  refine List.filter_congr fun f hf => ?_
  rw [hp.isInterface_eq (knows_of_isSubtype ((mem_lowestAncestors ha hb).mp hf).1.1).2]

theorem lub?_eq (ha : h.knows a = true) (hb : h.knows b = true) : h'.lub? a b = h.lub? a b := by
  rw [lub?_eq_lowest, lub?_eq_lowest, hp.isSubtype_eq hr ha, hp.isSubtype_eq hr hb,
    hp.lowestAncestors_eq hr ha hb, hp.lowestClasses_eq hr ha hb]

end Order

end Precedes

end ObjectInit.Hierarchy
