import ObjectInit.Proofs.Flow.Operation

/-! # Bodies without loops

Every operation commutes with merging, so nothing is lost by merging early where branches meet.
-/

namespace ObjectInit

universe u

inductive Body (V : Type u)
  | skip
  | op (op : Operation V)
  | seq (first second : Body V)
  | branch (left right : Body V)
deriving DecidableEq

namespace Body

variable {V : Type u}

/-- All ways through a body. -/
def paths : Body V → List (Path V)
  | skip => [[]]
  | op o => [[o]]
  | seq first second => first.paths.flatMap fun p => second.paths.map fun q => p ++ q
  | branch left right => left.paths ++ right.paths

variable (t : DeclarationTable)

/-- The paths of a sequence, grouped by what they do first. -/
private theorem map_run_seq (first second : Body V) (s : Store V) :
    ((seq first second).paths.map fun p => Path.run t p s) =
      first.paths.flatMap fun p => second.paths.map fun q => Path.run t q (Path.run t p s) := by
  simp only [paths, List.map_flatMap, List.map_map]
  congr 1
  funext p
  congr 1
  funext q
  exact Path.run_append t p q s

variable [DecidableEq V] [AbstractValue V]

/-- The store at the end of a body. Where two branches meet, their stores are merged. -/
def run : Body V → Store V → Store V
  | skip, s => s
  | op o, s => o.apply t s
  | seq first second, s => second.run (first.run s)
  | branch left right, s => (left.run s).merge (right.run s)

variable [LawfulJoin V]

theorem run_merge (b : Body V) (s s' : Store V) :
    b.run t (s.merge s') = (b.run t s).merge (b.run t s') := by
  induction b generalizing s s' with
  | skip => rfl
  | op o => exact Path.run_merge t [o] s s'
  | seq first second ihFirst ihSecond =>
      simp only [run]
      rw [ihFirst, ihSecond]
  | branch left right ihLeft ihRight =>
      simp only [run]
      rw [ihLeft, ihRight]
      exact sup_sup_sup_comm (left.run t s) (left.run t s') (right.run t s) (right.run t s')

theorem mergeAll?_paths (b : Body V) (s : Store V) :
    Store.mergeAll? (b.paths.map fun p => Path.run t p s) = some (b.run t s) := by
  induction b generalizing s with
  | skip => rfl
  | op o => rfl
  | seq first second ihFirst ihSecond =>
      have hmap : (first.paths.map fun p => second.run t (Path.run t p s)) =
          (first.paths.map fun p => Path.run t p s).map (second.run t) := by
        rw [List.map_map]
        rfl
      rw [map_run_seq, Store.mergeAll?_flatMap fun p _ => ihSecond (Path.run t p s), hmap,
        Store.mergeAll?_map (second.run_merge t), ihFirst]
      rfl
  | branch left right ihLeft ihRight =>
      rw [paths, List.map_append, Store.mergeAll?_append, ihLeft, ihRight]
      rfl

/-- Merging early says as much as running every path on its own: the store at the end of a body is
the merge over its paths, and a field is assigned there if it was at the entry or if every path
has an operation that assigns it. -/
theorem run_eq_merge_over_paths (b : Body V) (s : Store V) :
    Store.mergeAll? (b.paths.map fun p => Path.run t p s) = some (b.run t s) ∧
      ∀ f, (b.run t s).isInitialized f = true ↔
        s.isInitialized f = true ∨ ∀ p ∈ b.paths, ∃ op ∈ p, op.Sets t f := by
  refine ⟨b.mergeAll?_paths t s, fun f => ?_⟩
  rw [Store.isInitialized_of_mergeAll? (b.mergeAll?_paths t s) f, List.forall_mem_map]
  simp only [Path.isInitialized_run, forall_or_left]

/-- Both branches assign `y`, one of them also `x`; a call forgets the value that they share. -/
theorem run_eq_merge_over_paths_of_branches :
    let x : FieldId := ⟨⟨1⟩, ⟨1⟩⟩
    let y : FieldId := ⟨⟨1⟩, ⟨2⟩⟩
    let left : Body TrackedValue :=
      .seq (.op (.assign (.field .self x) (.tag 1))) (.op (.assign (.field .self y) (.tag 2)))
    let b := (left.branch (.op (.assign (.field .self y) (.tag 2)))).seq (.op (.call false))
    LawfulJoin TrackedValue ∧
      Store.mergeAll? (b.paths.map fun p => Path.run ∅ p ∅) = some (b.run ∅ ∅) ∧
      (∀ f, (b.run ∅ ∅).isInitialized f = true ↔ (∅ : Store TrackedValue).isInitialized f = true ∨
        ∀ p ∈ b.paths, ∃ op ∈ p, op.Sets ∅ f) ∧
      b.run ∅ ∅ = Store.mark ∅ y := by
  intro x y left b
  obtain ⟨hpaths, hfields⟩ := run_eq_merge_over_paths ∅ b ∅
  exact ⟨inferInstance, hpaths, hfields, by decide⟩

end Body

end ObjectInit
