import ObjectInit.Proofs.Flow.Operation

/-! # Loops

A walker goes around a loop until the store at its head is stable. However many paths the body
has, one way around is enough: the second adds nothing, and the loop takes no field away.
-/

namespace ObjectInit

universe u

/-- The paths through the body of a loop, of which there is at least one. -/
structure LoopBody (V : Type u) where
  first : Path V
  others : List (Path V)
deriving DecidableEq

namespace LoopBody

variable {V : Type u} [DecidableEq V] [AbstractValue V] (t : DeclarationTable)

def paths (b : LoopBody V) : List (Path V) := b.first :: b.others

/-- The store at the end of the body: the merge over its paths, each run from the same store. -/
def pass (b : LoopBody V) (s : Store V) : Store V :=
  (Path.run t b.first s).mergeFrom (b.others.map fun p => Path.run t p s)

/-- A driver that goes around the loop from the store at its head. It stops when a round leaves a
store that says neither more nor less; `none` if the rounds run out before. -/
def settle (b : LoopBody V) : Nat → Store V → Option (Store V)
  | 0, _ => none
  | rounds + 1, s =>
    let next := s.merge (b.pass t s)
    if next.atLeastAsPrecise s && s.atLeastAsPrecise next then some next else b.settle rounds next

theorem isInitialized_pass {b : LoopBody V} {s : Store V} {f : FieldId}
    (h : s.isInitialized f = true) : (b.pass t s).isInitialized f = true := by
  have hrun : ∀ p : Path V, (Path.run t p s).isInitialized f = true := fun p =>
    (Path.isInitialized_run t p s f).mpr (.inl h)
  rw [pass, Store.isInitialized_mergeFrom, List.forall_mem_map]
  exact ⟨hrun b.first, fun p _ => hrun p⟩

theorem initialized_merge_pass (b : LoopBody V) (s : Store V) :
    (s.merge (b.pass t s)).initialized = s.initialized := by
  apply FiniteSet.ext_mem
  intro f
  show (s.merge (b.pass t s)).isInitialized f = s.isInitialized f
  rw [Store.isInitialized_merge]
  cases h : s.isInitialized f with
  | false => rfl
  | true => rw [isInitialized_pass t h, Bool.and_true]

section LawfulJoin

variable [LawfulJoin V]

theorem pass_le_iff {b : LoopBody V} {s c : Store V} :
    b.pass t s ≤ c ↔ ∀ p ∈ b.paths, Path.run t p s ≤ c := by
  rw [pass, Store.mergeFrom_le_iff, List.forall_mem_map, paths, List.forall_mem_cons]

theorem run_le_pass {b : LoopBody V} {p : Path V} (hp : p ∈ b.paths) (s : Store V) :
    Path.run t p s ≤ b.pass t s := (pass_le_iff t).mp (le_refl _) p hp

theorem pass_pass_le (b : LoopBody V) (s : Store V) : b.pass t (b.pass t s) ≤ b.pass t s := by
  rw [pass_le_iff]
  intro q hq
  have hmap : Path.run t q (b.pass t s) = (Path.run t q (Path.run t b.first s)).mergeFrom
      ((b.others.map fun p => Path.run t p s).map (Path.run t q)) :=
    (Store.mergeFrom_map (Path.run_merge t q) _ _).symm
  have hpair : ∀ p ∈ b.paths, Path.run t q (Path.run t p s) ≤ b.pass t s := fun p hp =>
    le_trans (Path.run_run_le t p q s) (sup_le (run_le_pass t hp s) (run_le_pass t hq s))
  rw [hmap, Store.mergeFrom_le_iff, List.forall_mem_map, List.forall_mem_map]
  exact List.forall_mem_cons.mp hpair

theorem merge_pass_stable (b : LoopBody V) (s : Store V) :
    (s.merge (b.pass t s)).merge (b.pass t (s.merge (b.pass t s))) = s.merge (b.pass t s) := by
  refine sup_eq_left.mpr ?_
  rw [pass_le_iff]
  intro p hp
  rw [Path.run_merge]
  have hfirst : Path.run t p s ≤ b.pass t s := run_le_pass t hp s
  have hsecond : Path.run t p (b.pass t s) ≤ b.pass t s :=
    le_trans (run_le_pass t hp _) (b.pass_pass_le t s)
  exact le_trans (sup_le hfirst hsecond) le_sup_right

end LawfulJoin

variable [LawfulPrecision V]

/-- Every loop settles after one way around: a second changes nothing, so that the convergence test
holds in both directions and a driver needs no more than two rounds. The assigned fields at the
head are those before the loop. -/
theorem settles_after_one_pass (b : LoopBody V) (s : Store V) :
    let head := s.merge (b.pass t s)
    let again := head.merge (b.pass t head)
    again = head ∧ head.atLeastAsPrecise again = true ∧ again.atLeastAsPrecise head = true ∧
      (∀ more, b.settle t (more + 2) s = some head) ∧ head.initialized = s.initialized := by
  intro head again
  have hstable : again = head := b.merge_pass_stable t s
  have hself : head.atLeastAsPrecise head = true := Store.atLeastAsPrecise_iff.mpr (le_refl head)
  refine ⟨hstable, ?_, ?_, fun more => ?_, b.initialized_merge_pass t s⟩
  · rw [hstable, hself]
  · rw [hstable, hself]
  · have hlast : b.settle t (more + 1) head = some head := by
      show (if again.atLeastAsPrecise head && head.atLeastAsPrecise again then some again
        else b.settle t more again) = some head
      rw [hstable, hself]
      rfl
    show (if head.atLeastAsPrecise s && s.atLeastAsPrecise head then some head
      else b.settle t (more + 1) head) = some head
    rw [hlast]
    exact ite_self (some head)

/-- One path assigns a value that the loop started with, one another value, one only a field: one
way around forgets the value, and the second round ends the search. -/
theorem settles_after_one_pass_of_three_paths :
    let x : FieldId := ⟨⟨1⟩, ⟨1⟩⟩
    let b : LoopBody TrackedValue :=
      ⟨[.assign (.field .self x) (.tag 1), .call true],
        [[.assign (.field .self x) (.tag 2)], [.mark x]]⟩
    let s : Store TrackedValue := (∅ : Store TrackedValue).assign (.field .self x) (.tag 1)
    let head := s.merge (b.pass ∅ s)
    LawfulPrecision TrackedValue ∧ head = Store.mark ∅ x ∧ b.settle ∅ 1 s = none ∧
      head.merge (b.pass ∅ head) = head ∧ b.settle ∅ 2 s = some head ∧
      head.initialized = s.initialized := by
  intro x b s head
  obtain ⟨hagain, _, _, hsettle, hfields⟩ := settles_after_one_pass ∅ b s
  exact ⟨inferInstance, by decide, by decide, hagain, hsettle 0, hfields⟩

end LoopBody

end ObjectInit
