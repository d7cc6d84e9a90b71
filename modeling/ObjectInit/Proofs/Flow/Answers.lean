import ObjectInit.Flow.Store

/-! # What a store answers after each operation

A store is read through two questions, and every operation is pinned down by what it does to the
answers. A call turns out to keep or forget each expression on its own.
-/

namespace ObjectInit

universe u

namespace ValueStore

variable {V : Type u}

theorem get?_put (s : ValueStore V) (target : FlowExpr) (v : V) (e : FlowExpr) :
    (s.put target v).get? e =
      if e = target ∧ target.isTrackable = true then some v else s.get? e := by
  unfold put
  by_cases ht : target.isTrackable = true
  · by_cases he : e = target
    · subst he
      simp [ht]
    · simp [ht, he, FiniteMap.get?_insert_of_ne he]
  · simp [ht]

theorem get?_putAll (s : ValueStore V) {entries : List (FlowExpr × V)}
    (sorted : entries.Pairwise fun a b => compare a.1 b.1 = .lt) (e : FlowExpr) :
    (s.putAll entries).get? e =
      if e.isTrackable = true then (FiniteMap.find? e entries).or (s.get? e) else s.get? e := by
  induction entries generalizing s with
  | nil => simp [putAll, FiniteMap.find?]
  | cons head rest ih =>
      obtain ⟨k, v⟩ := head
      obtain ⟨hhead, hrest⟩ := List.pairwise_cons.mp sorted
      have hstep : s.putAll ((k, v) :: rest) = (s.put k v).putAll rest := rfl
      rw [hstep, ih (s.put k v) hrest, get?_put]
      by_cases he : e = k
      · subst he
        have hnot : FiniteMap.find? e rest = none := FiniteMap.find?_eq_none_of_lt hhead
        simp [hnot, FiniteMap.find?]
      · have hne : compare e k ≠ .eq := fun h => he (Std.LawfulEqCmp.eq_of_compare h)
        simp [he, hne, FiniteMap.find?]

theorem takeFields_sorted (s : ValueStore V) (p : FieldId → Bool) :
    (s.takeFields p).1.Pairwise fun a b => compare a.1 b.1 = .lt :=
  s.sorted.filter _

theorem find?_takeFields (s : ValueStore V) (p : FieldId → Bool) (e : FlowExpr) :
    FiniteMap.find? e (s.takeFields p).1 = (s.get? e).filter fun _ => readsFieldWhere p e :=
  FiniteMap.find?_filter _ s.sorted e

theorem get?_takeFields (s : ValueStore V) (p : FieldId → Bool) (e : FlowExpr) :
    (s.takeFields p).2.get? e = (s.get? e).filter fun _ => !readsFieldWhere p e :=
  FiniteMap.get?_filter s _ e

theorem get?_forgetAfterCall (s : ValueStore V) (sideEffectFree : Bool)
    (isFinal : FieldId → Bool) (e : FlowExpr) :
    (s.forgetAfterCall sideEffectFree isFinal).get? e =
      (s.get? e).filter fun _ => sideEffectFree || e.field?.all isFinal := by
  unfold forgetAfterCall
  cases sideEffectFree with
  | true => cases h : s.get? e <;> simp [h, Option.filter]
  | false => simp [FiniteMap.get?_filter]

end ValueStore

/-- Does the value of an expression survive a call? The fields with an invariant are set aside and
put back, as far as they can be tracked; the others are forgotten unless they are final or the call
has no side effects. -/
def FlowExpr.survivesCall (sideEffectFree : Bool) (isFinal isInvariant : FieldId → Bool)
    (e : FlowExpr) : Bool :=
  match e.field? with
  | none => true
  | some f => if isInvariant f then e.isTrackable else sideEffectFree || isFinal f

namespace Store

variable {V : Type u}

theorem ext_answers {a b : Store V} (fields : ∀ f, a.isInitialized f = b.isInitialized f)
    (values : ∀ e, a.value? e = b.value? e) : a = b := by
  obtain ⟨fa, va⟩ := a
  obtain ⟨fb, vb⟩ := b
  have hf : fa = fb := FiniteSet.ext_mem fields
  have hv : va = vb := FiniteMap.ext_get? values
  rw [hf, hv]

/-! ## Assigned fields -/

@[simp] theorem isInitialized_empty (f : FieldId) :
    (Store.empty : Store V).isInitialized f = false := rfl

theorem isInitialized_mark (s : Store V) (g f : FieldId) :
    (s.mark g).isInitialized f = true ↔ f = g ∨ s.isInitialized f = true :=
  FiniteSet.contains_add s.initialized g f

theorem isInitialized_markAll (s : Store V) (gs : List FieldId) (f : FieldId) :
    (s.markAll gs).isInitialized f = true ↔ f ∈ gs ∨ s.isInitialized f = true :=
  FiniteSet.contains_addAll s.initialized gs f

theorem isInitialized_assign (s : Store V) (target : FlowExpr) (v : V) (f : FieldId) :
    (s.assign target v).isInitialized f = true ↔
      target.ownField? = some f ∨ s.isInitialized f = true := by
  unfold assign isInitialized
  cases h : target.ownField? with
  | none => simp
  | some g =>
      show (s.initialized.add g).contains f = true ↔ _
      rw [FiniteSet.contains_add, Option.some.injEq, eq_comm]

@[simp] theorem isInitialized_call (s : Store V) (sideEffectFree : Bool)
    (isFinal isInvariant : FieldId → Bool) (f : FieldId) :
    (s.call sideEffectFree isFinal isInvariant).isInitialized f = s.isInitialized f := rfl

/-! ## Known values -/

@[simp] theorem value?_mark (s : Store V) (g : FieldId) (e : FlowExpr) :
    (s.mark g).value? e = s.value? e := rfl

@[simp] theorem value?_markAll (s : Store V) (gs : List FieldId) (e : FlowExpr) :
    (s.markAll gs).value? e = s.value? e := rfl

theorem value?_assign (s : Store V) (target : FlowExpr) (v : V) (e : FlowExpr) :
    (s.assign target v).value? e =
      if e = target ∧ target.isTrackable = true then some v else s.value? e :=
  ValueStore.get?_put s.values target v e

theorem value?_call (s : Store V) (sideEffectFree : Bool) (isFinal isInvariant : FieldId → Bool)
    (e : FlowExpr) :
    (s.call sideEffectFree isFinal isInvariant).value? e =
      if e.survivesCall sideEffectFree isFinal isInvariant = true then s.value? e else none := by
  have hput := ValueStore.get?_putAll
    ((s.values.takeFields isInvariant).2.forgetAfterCall sideEffectFree isFinal)
    (s.values.takeFields_sorted isInvariant) e
  rw [ValueStore.find?_takeFields, ValueStore.get?_forgetAfterCall,
    ValueStore.get?_takeFields] at hput
  refine hput.trans ?_
  unfold FlowExpr.survivesCall ValueStore.readsFieldWhere value?
  cases s.values.get? e with
  | none => simp
  | some v =>
      cases hf : e.field? with
      | none => simp [Option.filter]
      | some f =>
          cases hi : isInvariant f with
          | true => simp [hi, Option.filter]
          | false => simp [hi, Option.filter]

end Store

end ObjectInit
