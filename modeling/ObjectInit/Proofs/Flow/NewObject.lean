import ObjectInit.Flow.Effect
import ObjectInit.Proofs.Qualifier.Lattice

/-! # New objects

An object may be unfinished exactly if its qualifier has a frame, and no bound loses a frame or
brings one along. Which frame it is depends on the oracle, that there is one does not.
-/

namespace ObjectInit.Qualifier

variable {o : TypeOracle} {a b : Qualifier}

theorem le_initialized_iff : le o a initialized = true ↔ a.frame? = none := by
  cases a <;> simp [le, frame?]

theorem frame?_eq_none_of_le (hab : le o a b = true) (hb : b.frame? = none) : a.frame? = none := by
  by_contra framed
  obtain ⟨f, hf⟩ := Option.ne_none_iff_exists'.mp framed
  obtain ⟨g, hg, -⟩ := exists_frame_of_le hf hab
  rw [hb] at hg
  cases hg

/-- Whatever the oracle answers, a bound has no frame exactly if neither side has one. -/
theorem frame?_lub_eq_none_iff :
    (lub o a b).frame? = none ↔ a.frame? = none ∧ b.frame? = none := by
  unfold lub
  split
  · rename_i hab
    exact ⟨fun hb => ⟨frame?_eq_none_of_le hab hb, hb⟩, And.right⟩
  · split
    · rename_i hba
      exact ⟨fun ha => ⟨ha, frame?_eq_none_of_le hba ha⟩, And.left⟩
    · rename_i hab hba
      -- Of two qualifiers that are not ordered at least one has a frame, and its bound keeps one.
      cases a <;> cases b <;> simp only [le, not_true_eq_false] at hab hba <;>
        simp [lubApart, frame?]

theorem frame?_foldl_lub_eq_none_iff {qs : List Qualifier} :
    (qs.foldl (lub o) a).frame? = none ↔ a.frame? = none ∧ ∀ q ∈ qs, q.frame? = none := by
  induction qs generalizing a with
  | nil => simp
  | cons q qs ih =>
      rw [List.foldl_cons, ih, frame?_lub_eq_none_iff, List.forall_mem_cons, and_assoc]

theorem frame?_lubAll_eq_none_iff {qs : List Qualifier} :
    (lubAll o qs).frame? = none ↔ ∀ q ∈ qs, q.frame? = none := by
  unfold lubAll
  rw [frame?_foldl_lub_eq_none_iff]
  exact and_iff_right rfl

theorem all_finished_iff {qs : List Qualifier} :
    (qs.all fun q => q = initialized || q = bottom) = true ↔ ∀ q ∈ qs, q.frame? = none := by
  rw [List.all_eq_true]
  refine forall₂_congr fun q _ => ?_
  cases q <;> simp [frame?]

/-- Over every oracle, even one that contradicts itself, a new object is initialized if the bound of
the arguments is below `initialized`, and else under construction from its own class on. -/
theorem ofNewObject_eq_ite_lubAll (o : TypeOracle) (frame : Frame) (args : List Qualifier) :
    ofNewObject frame args =
      if le o (lubAll o args) initialized = true then initialized else under frame := by
  have same : (args.all fun q => q = initialized || q = bottom) = true ↔
      le o (lubAll o args) initialized = true := by
    rw [all_finished_iff, le_initialized_iff, frame?_lubAll_eq_none_iff]
  unfold ofNewObject
  exact if_congr same rfl rfl

end ObjectInit.Qualifier
