import ObjectInit.Proofs.Flow.Coherent

/-! # A call is a filter

In a store that operations lead to, what a call leaves is what a single test of each expression
keeps, so a call made twice does no more than once, and calls may be exchanged.
-/

namespace ObjectInit

universe u

/-- Does a call keep the value of an expression? It may only change fields that are neither final
nor have an invariant, and none at all if it has no side effects. -/
def FlowExpr.keptByCall (sideEffectFree : Bool) (isFinal isInvariant : FieldId → Bool)
    (e : FlowExpr) : Bool :=
  sideEffectFree || e.field?.all fun f => isFinal f || isInvariant f

theorem FlowExpr.survivesCall_eq {e : FlowExpr} (tracked : e.isTrackable = true)
    (sideEffectFree : Bool) (isFinal isInvariant : FieldId → Bool) :
    e.survivesCall sideEffectFree isFinal isInvariant =
      e.keptByCall sideEffectFree isFinal isInvariant := by
  unfold survivesCall keptByCall
  cases e.field? with
  | none => simp
  | some f => cases invariant : isInvariant f <;> simp [invariant, tracked]

theorem FlowExpr.keptByCall_iff {sideEffectFree : Bool} {isFinal isInvariant : FieldId → Bool}
    {e : FlowExpr} :
    e.keptByCall sideEffectFree isFinal isInvariant = true ↔
      sideEffectFree = true ∨ ∀ f ∈ e.field?, isFinal f = true ∨ isInvariant f = true := by
  unfold keptByCall
  cases e.field? <;> simp

namespace Store

variable {V : Type u} {s : Store V}

theorem Coherent.value?_call (hs : s.Coherent) (sideEffectFree : Bool)
    (isFinal isInvariant : FieldId → Bool) (e : FlowExpr) :
    (s.call sideEffectFree isFinal isInvariant).value? e =
      (s.value? e).filter fun _ => e.keptByCall sideEffectFree isFinal isInvariant := by
  rw [Store.value?_call]
  cases known : s.value? e with
  | none => simp
  | some v =>
      rw [FlowExpr.survivesCall_eq (hs.isTrackable known)]
      simp [Option.filter]

theorem Coherent.value?_of_call (hs : s.Coherent) {sideEffectFree : Bool}
    {isFinal isInvariant : FieldId → Bool} {e : FlowExpr} {v : V}
    (known : (s.call sideEffectFree isFinal isInvariant).value? e = some v) :
    s.value? e = some v := by
  rw [hs.value?_call] at known
  exact (Option.filter_eq_some_iff.mp known).1

theorem Coherent.call (hs : s.Coherent) (sideEffectFree : Bool)
    (isFinal isInvariant : FieldId → Bool) :
    (s.call sideEffectFree isFinal isInvariant).Coherent where
  other f := by rw [hs.value?_call, hs.other f, Option.filter_none]
  self known := hs.self (hs.value?_of_call known)
  ofClass known := hs.ofClass (hs.value?_of_call known)

theorem Coherent.values_call (hs : s.Coherent) (sideEffectFree : Bool)
    (isFinal isInvariant : FieldId → Bool) :
    (s.call sideEffectFree isFinal isInvariant).values =
      s.values.filter fun e => e.1.keptByCall sideEffectFree isFinal isInvariant := by
  apply FiniteMap.ext_get?
  intro e
  rw [FiniteMap.get?_filter]
  exact hs.value?_call sideEffectFree isFinal isInvariant e

theorem Coherent.call_comm (hs : s.Coherent) (free free' : Bool)
    (isFinal isFinal' isInvariant isInvariant' : FieldId → Bool) :
    (s.call free isFinal isInvariant).call free' isFinal' isInvariant' =
      (s.call free' isFinal' isInvariant').call free isFinal isInvariant := by
  apply ext_answers
  · intro f
    rfl
  · intro e
    rw [(hs.call ..).value?_call, (hs.call ..).value?_call, hs.value?_call, hs.value?_call,
      Option.filter_filter, Option.filter_filter]
    simp only [Bool.and_comm]

theorem Coherent.call_call_self (hs : s.Coherent) (sideEffectFree : Bool)
    (isFinal isInvariant : FieldId → Bool) :
    (s.call sideEffectFree isFinal isInvariant).call sideEffectFree isFinal isInvariant =
      s.call sideEffectFree isFinal isInvariant := by
  apply ext_answers
  · intro f
    rfl
  · intro e
    rw [(hs.call ..).value?_call, hs.value?_call, Option.filter_filter]
    simp only [Bool.and_self]

variable [DecidableEq V] [AbstractValue V]

/-- In a store that operations lead to, a call leaves the assigned fields as they are and filters
the values: those of fields that are neither final nor have an invariant are forgotten, unless the
call has no side effects, and all others stay what they were. So calls are idempotent, and any two
of them commute. -/
theorem Obtained.call_filters (hs : s.Obtained) (sideEffectFree : Bool)
    (isFinal isInvariant : FieldId → Bool) :
    (s.call sideEffectFree isFinal isInvariant).initialized = s.initialized ∧
      (s.call sideEffectFree isFinal isInvariant).values =
        s.values.filter (fun e => e.1.keptByCall sideEffectFree isFinal isInvariant) ∧
      (∀ e v, (s.call sideEffectFree isFinal isInvariant).value? e = some v ↔
        s.value? e = some v ∧
          (sideEffectFree = true ∨ ∀ f ∈ e.field?, isFinal f = true ∨ isInvariant f = true)) ∧
      (s.call sideEffectFree isFinal isInvariant).call sideEffectFree isFinal isInvariant =
        s.call sideEffectFree isFinal isInvariant ∧
      ∀ sideEffectFree' isFinal' isInvariant',
        (s.call sideEffectFree isFinal isInvariant).call sideEffectFree' isFinal' isInvariant' =
          (s.call sideEffectFree' isFinal' isInvariant').call sideEffectFree isFinal
            isInvariant := by
  have coherent : s.Coherent := obtained_iff_coherent.mp hs
  refine ⟨rfl, coherent.values_call .., fun e v => ?_, coherent.call_call_self ..,
    fun _ _ _ => coherent.call_comm ..⟩
  rw [coherent.value?_call, Option.filter_eq_some_iff, FlowExpr.keptByCall_iff]

/-- A call keeps a local variable, a final field and a field with an invariant. It forgets a field
that is neither, which stays assigned. -/
theorem Obtained.call_filters_of_mixed_fields :
    let x : FieldId := ⟨⟨1⟩, ⟨1⟩⟩
    let y : FieldId := ⟨⟨1⟩, ⟨2⟩⟩
    let z : FieldId := ⟨⟨1⟩, ⟨3⟩⟩
    let s : Store TrackedValue :=
      ((((∅ : Store TrackedValue).assign (.localVar ⟨0⟩) (.tag 0)).assign (.field .self x)
        (.tag 1)).assign (.field (.localVar ⟨0⟩) y) (.tag 2)).assign (.field (.ofClass ⟨1⟩) z)
        (.tag 3)
    let after := s.call false (· = x) (· = y)
    s.Obtained ∧ after.value? (.localVar ⟨0⟩) = some (.tag 0) ∧
      after.value? (.field .self x) = some (.tag 1) ∧
      after.value? (.field (.localVar ⟨0⟩) y) = some (.tag 2) ∧
      after.value? (.field (.ofClass ⟨1⟩) z) ≠ some (.tag 3) ∧ after.isInitialized z = true ∧
      after.call false (· = x) (· = y) = after ∧
      after.call false (· = y) (· = z) =
        (s.call false (· = y) (· = z)).call false (· = x) (· = y) := by
  intro x y z s after
  have reached : s.Obtained := .assign _ _ (.assign _ _ (.assign _ _ (.assign _ _ .empty)))
  obtain ⟨fields, -, values, again, exchange⟩ :=
    Obtained.call_filters reached false (· = x) (· = y)
  have forgotten : ¬ (false = true ∨ ∀ f ∈ (FlowExpr.field (.ofClass ⟨1⟩) z).field?,
      decide (f = x) = true ∨ decide (f = y) = true) := by decide
  have assigned : after.initialized.contains z = true := by
    rw [fields]
    decide
  exact ⟨reached, (values ..).mpr (by decide), (values ..).mpr (by decide),
    (values ..).mpr (by decide), fun kept => forgotten ((values ..).mp kept).2, assigned, again,
    exchange ..⟩

end Store

end ObjectInit
