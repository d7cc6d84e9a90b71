import ObjectInit.Flow.Effect
import ObjectInit.Flow.Entry
import ObjectInit.Proofs.Flow.Built

/-! # Coherent stores

A store keeps two books: the fields that count as assigned, and the values that are known.
Operations never make them contradict each other, and any store whose books agree is the outcome of
some operations.
-/

namespace ObjectInit.Store

universe u

variable {V : Type u}

/-- The values of a store agree with its assigned fields. Nothing is known of a field reached
through an arbitrary expression, and a field of the current object or of a class has a known value
only if it is assigned. -/
structure Coherent (s : Store V) : Prop where
  other (f : FieldId) : s.value? (.field .other f) = none
  self {f : FieldId} {v : V} : s.value? (.field .self f) = some v → s.isInitialized f = true
  ofClass {frame : Frame} {f : FieldId} {v : V} :
    s.value? (.field (.ofClass frame) f) = some v → s.isInitialized f = true

theorem Coherent.isTrackable {s : Store V} (hs : s.Coherent) {e : FlowExpr} {v : V}
    (known : s.value? e = some v) : e.isTrackable = true := by
  unfold FlowExpr.isTrackable
  split
  · rename_i f
    rw [hs.other f] at known
    cases known
  · rfl

theorem Coherent.isInitialized {s : Store V} (hs : s.Coherent) {e : FlowExpr} {f : FieldId}
    (own : e.ownField? = some f) {v : V} (known : s.value? e = some v) :
    s.isInitialized f = true := by
  unfold FlowExpr.ownField? at own
  split at own
  · cases own
    exact hs.self known
  · cases own
    exact hs.ofClass known
  · cases own

/-! ## Writing a store down -/

def assignAll (s : Store V) (entries : List (FlowExpr × V)) : Store V :=
  entries.foldl (fun s e => s.assign e.1 e.2) s

theorem values_assignAll (s : Store V) (entries : List (FlowExpr × V)) :
    (s.assignAll entries).values = s.values.putAll entries := by
  induction entries generalizing s with
  | nil => rfl
  | cons e rest ih => exact ih (s.assign e.1 e.2)

theorem isInitialized_assignAll (s : Store V) (entries : List (FlowExpr × V)) (f : FieldId) :
    (s.assignAll entries).isInitialized f = true ↔
      (∃ e ∈ entries, e.1.ownField? = some f) ∨ s.isInitialized f = true := by
  induction entries generalizing s with
  | nil => simp [assignAll]
  | cons e rest ih =>
      have hstep : s.assignAll (e :: rest) = (s.assign e.1 e.2).assignAll rest := rfl
      simp only [hstep, ih (s.assign e.1 e.2), isInitialized_assign, List.mem_cons,
        exists_eq_or_imp]
      rw [or_left_comm, or_assoc]

theorem Coherent.eq_written {s : Store V} (hs : s.Coherent) :
    ((∅ : Store V).assignAll s.values.entries).markAll s.initialized.toList = s := by
  apply ext_answers
  · intro f
    rw [Bool.eq_iff_iff, isInitialized_markAll, isInitialized_assignAll, FiniteSet.mem_toList]
    -- The values assign no field that the store does not have anyway.
    constructor
    · intro h
      obtain marked | ⟨⟨e, v⟩, he, own⟩ | hempty := h
      · exact marked
      · exact hs.isInitialized own (FiniteMap.get?_eq_some_iff.mpr he)
      · cases hempty
    · exact .inl
  · intro e
    have hvalue : ((∅ : Store V).assignAll s.values.entries).value? e =
        if e.isTrackable = true then (s.value? e).or none else none := by
      unfold value?
      rw [values_assignAll]
      exact ValueStore.get?_putAll _ s.values.sorted e
    rw [value?_markAll, hvalue]
    cases known : s.value? e with
    | none => simp
    | some v => simp [hs.isTrackable known]

/-! ## Operations -/

variable [DecidableEq V] [AbstractValue V]

theorem Built.assignAll {s : Store V} (hs : s.Built) (entries : List (FlowExpr × V)) :
    (s.assignAll entries).Built := by
  induction entries generalizing s with
  | nil => exact hs
  | cons e rest ih => exact ih (hs.assign e.1 e.2)

theorem built_iff_coherent {s : Store V} : s.Built ↔ s.Coherent := by
  constructor
  · intro hs
    exact ⟨hs.value?_other, hs.isInitialized_of_value rfl, hs.isInitialized_of_value rfl⟩
  · intro hs
    rw [← hs.eq_written]
    exact (Built.empty.assignAll _).markAll _

/-- The stores that come from empty ones and from the entries of members by operations and merges.
Declarations, options and what a call keeps may differ from step to step. -/
inductive Obtained : Store V → Prop
  | empty : Obtained ∅
  | entry (t : DeclarationTable) (options : Options) (m : MemberId) :
      Obtained (t.entryStore options m)
  | entryAfterInitializers (t : DeclarationTable) (options : Options) (results : FlowResults V)
      (m : MemberId) : Obtained (t.entryStoreAfterInitializers options results m)
  | assign {s : Store V} (target : FlowExpr) (value : V) :
      Obtained s → Obtained (s.assign target value)
  | mark {s : Store V} (f : FieldId) : Obtained s → Obtained (s.mark f)
  | thisCall {s : Store V} (t : DeclarationTable) (frame : Frame) :
      Obtained s → Obtained (s.callThisConstructor t frame)
  | call {s : Store V} (sideEffectFree : Bool) (isFinal isInvariant : FieldId → Bool) :
      Obtained s → Obtained (s.call sideEffectFree isFinal isInvariant)
  | merge {a b : Store V} : Obtained a → Obtained b → Obtained (a.merge b)

theorem Built.entryStore (t : DeclarationTable) (options : Options) (m : MemberId) :
    (t.entryStore options m : Store V).Built := by
  unfold DeclarationTable.entryStore
  cases t.member? m with
  | none => exact .empty
  | some d => exact Built.empty.markAll _

theorem Built.entryStoreAfterInitializers (t : DeclarationTable) (options : Options)
    (results : FlowResults V) (m : MemberId) :
    (t.entryStoreAfterInitializers options results m).Built := by
  have hentry : (t.entryStore options m : Store V).Built := Built.entryStore t options m
  unfold DeclarationTable.entryStoreAfterInitializers
  cases t.member? m with
  | none => exact hentry
  | some d =>
      dsimp only
      split
      · exact hentry.markAll _
      · exact hentry

theorem Obtained.built {s : Store V} (hs : s.Obtained) : s.Built := by
  induction hs with
  | empty => exact .empty
  | entry t options m => exact Built.entryStore t options m
  | entryAfterInitializers t options results m =>
      exact Built.entryStoreAfterInitializers t options results m
  | assign target value _ ih => exact ih.assign target value
  | mark f _ ih => exact ih.mark f
  | thisCall t frame _ ih => exact ih.markAll _
  | call sideEffectFree isFinal isInvariant _ ih => exact ih.call sideEffectFree isFinal isInvariant
  | merge _ _ iha ihb => exact iha.merge ihb

theorem Built.obtained {s : Store V} (hs : s.Built) : s.Obtained := by
  induction hs with
  | empty => exact .empty
  | assign target value _ ih => exact ih.assign target value
  | mark f _ ih => exact ih.mark f
  | call sideEffectFree isFinal isInvariant _ ih => exact ih.call sideEffectFree isFinal isInvariant
  | merge _ _ iha ihb => exact iha.merge ihb

/-- Whatever the operations lead to is coherent, and nothing else is: every coherent store comes
from some operations. -/
theorem obtained_iff_coherent {s : Store V} : s.Obtained ↔ s.Coherent := by
  rw [← built_iff_coherent]
  exact ⟨Obtained.built, Built.obtained⟩

end ObjectInit.Store
