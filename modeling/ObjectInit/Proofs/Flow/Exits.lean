import Mathlib.Data.List.Induction
import ObjectInit.Flow.Results
import ObjectInit.Proofs.Flow.Merge

/-! # The ends of a member

What is written down for a member is the merge of the stores with which it was seen to end, so the
order of the walk is forgotten and an end that is met again adds nothing.
-/

namespace ObjectInit

universe u

/-- What a walk through the control flow writes down. -/
inductive FlowRecord (V : Type u)
  | before (location : Location) (store : Store V)
  | exit (member : MemberId) (store : Store V)
deriving DecidableEq

def FlowRecord.exitOf? {V : Type u} (m : MemberId) : FlowRecord V → Option (Store V)
  | before _ _ => none
  | exit m' s => if m' = m then some s else none

namespace FlowResults

variable {V : Type u}

def exitsOf (m : MemberId) (records : List (FlowRecord V)) : List (Store V) :=
  records.filterMap (FlowRecord.exitOf? m)

theorem mem_exitsOf {m : MemberId} {records : List (FlowRecord V)} {s : Store V} :
    s ∈ exitsOf m records ↔ .exit m s ∈ records := by
  unfold exitsOf
  rw [List.mem_filterMap]
  constructor
  · rintro ⟨_ | ⟨m', s'⟩, recorded, found⟩
    · cases found
    · simp only [FlowRecord.exitOf?, Option.ite_none_right_eq_some, Option.some.injEq] at found
      obtain ⟨rfl, rfl⟩ := found
      exact recorded
  · intro recorded
    exact ⟨_, recorded, if_pos rfl⟩

theorem exitsOf_eq_nil_iff {m : MemberId} {records : List (FlowRecord V)} :
    exitsOf m records = [] ↔ ∀ s, .exit m s ∉ records := by
  rw [List.eq_nil_iff_forall_not_mem]
  simp only [mem_exitsOf]

theorem exitsOf_concat (m : MemberId) (records : List (FlowRecord V)) (e : FlowRecord V) :
    exitsOf m (records ++ [e]) = exitsOf m records ++ (e.exitOf? m).toList := by
  unfold exitsOf
  rw [List.filterMap_append]
  cases found : e.exitOf? m <;> simp [found]

variable [DecidableEq V] [AbstractValue V]

def record (r : FlowResults V) : FlowRecord V → FlowResults V
  | .before l s => r.recordBefore l s
  | .exit m s => r.recordExit m s

def recordAll (records : List (FlowRecord V)) : FlowResults V := records.foldl record ∅

theorem recordAll_concat (records : List (FlowRecord V)) (e : FlowRecord V) :
    recordAll (records ++ [e]) = (recordAll records).record e := by
  unfold recordAll
  rw [List.foldl_append]
  rfl

theorem exitStore?_recordExit_self (r : FlowResults V) (m : MemberId) (s : Store V) :
    (r.recordExit m s).exitStore? m = Option.merge Store.merge (r.exitStore? m) (some s) := by
  unfold exitStore? recordExit
  rw [FiniteMap.get?_insert_self]
  cases r.exits.get? m <;> rfl

theorem exitStore?_record (r : FlowResults V) (e : FlowRecord V) (m : MemberId) :
    (r.record e).exitStore? m = Option.merge Store.merge (r.exitStore? m) (e.exitOf? m) := by
  cases e with
  | before l s => exact (Option.merge_none_right ..).symm
  | exit m' s =>
      by_cases same : m' = m
      · subst same
        rw [FlowRecord.exitOf?, if_pos rfl]
        exact r.exitStore?_recordExit_self m' s
      · rw [FlowRecord.exitOf?, if_neg same, Option.merge_none_right]
        exact FiniteMap.get?_insert_of_ne (Ne.symm same)

theorem exitStore?_recordAll [LawfulJoin V] (records : List (FlowRecord V)) (m : MemberId) :
    (recordAll records).exitStore? m = Store.mergeAll? (exitsOf m records) := by
  induction records using List.reverseRecOn with
  | nil => rfl
  | append_singleton records e ih =>
      have last : Store.mergeAll? (e.exitOf? m).toList = e.exitOf? m := by
        cases e.exitOf? m <;> rfl
      rw [recordAll_concat, exitStore?_record, ih, exitsOf_concat, Store.mergeAll?_append, last]

theorem exitStore?_recordAll_congr [LawfulJoin V] {records records' : List (FlowRecord V)}
    {m : MemberId} (same : ∀ s, .exit m s ∈ records' ↔ .exit m s ∈ records) :
    (recordAll records').exitStore? m = (recordAll records).exitStore? m := by
  rw [exitStore?_recordAll, exitStore?_recordAll]
  exact Store.mergeAll?_congr fun s => by rw [mem_exitsOf, mem_exitsOf, same s]

/-- What is known of the ends of a member after a walk is nothing if no end was met, and the merge
of all its ends otherwise. The order of the walk plays no part, nor how often an end was met, nor
what was written down of other members and places. A field is assigned in it exactly if it is
assigned at every end. -/
theorem exitStore?_recordAll_independent [LawfulJoin V] (records : List (FlowRecord V))
    (m : MemberId) :
    ((recordAll records).exitStore? m = none ↔ ∀ s, .exit m s ∉ records) ∧
      (recordAll records).exitStore? m = Store.mergeAll? (exitsOf m records) ∧
      (∀ records', records'.Perm records →
        (recordAll records').exitStore? m = (recordAll records).exitStore? m) ∧
      (∀ records', (∀ s, .exit m s ∈ records' ↔ .exit m s ∈ records) →
        (recordAll records').exitStore? m = (recordAll records).exitStore? m) ∧
      ∀ all, (recordAll records).exitStore? m = some all → ∀ f,
        all.isInitialized f = true ↔ ∀ s, .exit m s ∈ records → s.isInitialized f = true := by
  refine ⟨?_, exitStore?_recordAll records m, fun records' p => ?_,
    fun records' same => exitStore?_recordAll_congr same, fun all known f => ?_⟩
  · rw [exitStore?_recordAll, Store.mergeAll?_eq_none_iff, exitsOf_eq_nil_iff]
  · exact exitStore?_recordAll_congr fun s => p.mem_iff
  · rw [exitStore?_recordAll] at known
    rw [Store.isInitialized_of_mergeAll? known]
    simp only [mem_exitsOf]

/-- Two different ends of a member, one of them met twice and a place and another member between
them: walked backwards, or without what is between, they leave the same store. -/
theorem exitStore?_recordAll_independent_of_two_ends :
    let x : FlowExpr := .field .self ⟨⟨1⟩, ⟨1⟩⟩
    let y : FieldId := ⟨⟨1⟩, ⟨2⟩⟩
    let left : Store TrackedValue :=
      ((∅ : Store TrackedValue).assign x (.reference .nonNull none)).mark y
    let right : Store TrackedValue :=
      (∅ : Store TrackedValue).assign x (.reference .nullable none)
    let walk : List (FlowRecord TrackedValue) :=
      [.exit ⟨0⟩ left, .before ⟨5⟩ left, .exit ⟨1⟩ ∅, .exit ⟨0⟩ right, .exit ⟨0⟩ left]
    let short : List (FlowRecord TrackedValue) := [.exit ⟨0⟩ right, .exit ⟨0⟩ left]
    LawfulJoin TrackedValue ∧ walk.reverse.Perm walk ∧
      (∀ s, .exit ⟨0⟩ s ∈ short ↔ .exit ⟨0⟩ s ∈ walk) ∧
      (recordAll walk).exitStore? ⟨0⟩ = some right ∧
      (recordAll walk.reverse).exitStore? ⟨0⟩ = some right ∧
      (recordAll short).exitStore? ⟨0⟩ = some right ∧
      (right.isInitialized y = true ↔ ∀ s, .exit ⟨0⟩ s ∈ walk → s.isInitialized y = true) ∧
      (recordAll walk).exitStore? ⟨2⟩ = none := by
  intro x y left right walk short
  have known : (recordAll walk).exitStore? ⟨0⟩ = some right := by decide
  have backwards : walk.reverse.Perm walk := List.reverse_perm walk
  have same : ∀ s, .exit ⟨0⟩ s ∈ short ↔ .exit ⟨0⟩ s ∈ walk := by
    intro s
    simp [short, walk, or_comm]
  obtain ⟨-, -, reordered, repeated, fields⟩ := exitStore?_recordAll_independent walk ⟨0⟩
  obtain ⟨unseen, -⟩ := exitStore?_recordAll_independent walk ⟨2⟩
  refine ⟨inferInstance, backwards, same, known, (reordered _ backwards).trans known,
    (repeated _ same).trans known, fields right known y, unseen.mpr ?_⟩
  intro s recorded
  simp [walk] at recorded

end FlowResults

end ObjectInit
