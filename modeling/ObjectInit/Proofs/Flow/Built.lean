import ObjectInit.Proofs.Flow.Merge

/-! # Stores that operations build

A store that starts empty and changes only by its own operations knows no value of a field that it
does not count as assigned.
-/

namespace ObjectInit.Store

universe u

variable {V : Type u} [DecidableEq V] [AbstractValue V]

/-- The stores that come from empty ones by assigning, marking, calling and merging. What a call
keeps may differ from call to call. -/
inductive Built : Store V → Prop
  | empty : Built ∅
  | assign {s : Store V} (target : FlowExpr) (value : V) : Built s → Built (s.assign target value)
  | mark {s : Store V} (f : FieldId) : Built s → Built (s.mark f)
  | call {s : Store V} (sideEffectFree : Bool) (isFinal isInvariant : FieldId → Bool) :
      Built s → Built (s.call sideEffectFree isFinal isInvariant)
  | merge {a b : Store V} : Built a → Built b → Built (a.merge b)

theorem Built.markAll {s : Store V} (hs : s.Built) (fs : List FieldId) :
    (s.markAll fs).Built := by
  induction fs generalizing s with
  | nil => exact hs
  | cons f rest ih => exact ih (hs.mark f)

theorem Built.value?_other {s : Store V} (hs : s.Built) (f : FieldId) :
    s.value? (.field .other f) = none := by
  induction hs with
  | empty => rfl
  | assign target value _ ih =>
      rw [value?_assign, ih]
      split
      · rename_i written
        obtain ⟨rfl, tracked⟩ := written
        cases tracked
      · rfl
  | mark _ _ ih => exact ih
  | call _ _ _ _ ih =>
      rw [value?_call, ih]
      split <;> rfl
  | merge _ _ iha _ => rw [value?_merge, iha, AbstractValue.joinKnown_none_left]

theorem Built.isInitialized_of_value {s : Store V} (hs : s.Built) {e : FlowExpr} {f : FieldId}
    (own : e.ownField? = some f) {v : V} (known : s.value? e = some v) :
    s.isInitialized f = true := by
  induction hs generalizing v with
  | empty => cases known
  | @assign s target value _ ih =>
      rw [isInitialized_assign]
      rw [value?_assign] at known
      split at known
      · rename_i written
        exact .inl (written.1 ▸ own)
      · exact .inr (ih known)
  | mark g _ ih => exact (isInitialized_mark _ g f).mpr (.inr (ih known))
  | call sideEffectFree isFinal isInvariant _ ih =>
      rw [value?_call] at known
      split at known
      · exact ih known
      · cases known
  | @merge a b _ _ iha ihb =>
      rw [value?_merge] at known
      obtain ⟨mine, hmine, hboth⟩ := Option.bind_eq_some_iff.mp known
      obtain ⟨theirs, htheirs, -⟩ := Option.bind_eq_some_iff.mp hboth
      rw [isInitialized_merge, iha hmine, ihb htheirs, Bool.and_self]

theorem Built.value?_eq_none {s : Store V} (hs : s.Built) {e : FlowExpr} {f : FieldId}
    (own : e.ownField? = some f) (unassigned : s.isInitialized f = false) : s.value? e = none := by
  cases known : s.value? e with
  | none => rfl
  | some v =>
      rw [hs.isInitialized_of_value own known] at unassigned
      cases unassigned

end ObjectInit.Store
