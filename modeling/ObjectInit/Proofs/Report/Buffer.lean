import ObjectInit.Report.Pending

/-! # Buffers of findings

A finding takes over the position of the one at the same place. So findings at different places are
all kept, in the order in which they come, and one that is there already changes nothing.
-/

namespace ObjectInit.ErrorBuffer

theorem put_of_fresh {e : PendingError} {es : List PendingError}
    (fresh : e.location ∉ es.map (·.location)) : put e es = es ++ [e] := by
  induction es with
  | nil => rfl
  | cons e' rest ih =>
      rw [List.map_cons, List.mem_cons, not_or] at fresh
      simp only [put, if_neg (Ne.symm fresh.1), ih fresh.2, List.cons_append]

theorem put_of_mem {e : PendingError} {es : List PendingError}
    (apart : (es.map (·.location)).Nodup) (known : e ∈ es) : put e es = es := by
  induction es with
  | nil => cases known
  | cons e' rest ih =>
      rw [List.map_cons, List.nodup_cons] at apart
      cases List.mem_cons.mp known with
      | inl here => simp [put, here]
      | inr later =>
          -- The place of the finding is in the rest, so it is not that of the first one.
          have other : e'.location ≠ e.location := by
            intro same
            exact apart.1 (same ▸ List.mem_map_of_mem later)
          simp only [put, if_neg other, ih apart.2 later]

theorem put_perm {e : PendingError} {es : List PendingError}
    (apart : (es.map (·.location)).Nodup) :
    (put e es).Perm (es.filter (fun e' => e'.location ≠ e.location) ++ [e]) := by
  induction es with
  | nil => exact .refl [e]
  | cons e' rest ih =>
      rw [List.map_cons, List.nodup_cons] at apart
      by_cases same : e'.location = e.location
      · have others : rest.filter (fun e'' => e''.location ≠ e.location) = rest := by
          rw [List.filter_eq_self]
          intro e'' later
          refine decide_eq_true fun there => apart.1 ?_
          rw [same, ← there]
          exact List.mem_map_of_mem later
        rw [put, if_pos same, List.filter_cons_of_neg (by simp [same]), others]
        exact (List.perm_append_singleton e rest).symm
      · rw [put, if_neg same, List.filter_cons_of_pos (by simp [same])]
        exact (ih apart.2).cons e'

theorem locations_record (b : ErrorBuffer) (e : PendingError) :
    (b.record e).locations =
      if e.location ∈ b.locations then b.locations else b.locations ++ [e.location] := by
  obtain ⟨es⟩ := b
  unfold record locations
  dsimp only
  induction es with
  | nil => rfl
  | cons e' rest ih =>
      by_cases same : e'.location = e.location
      · simp [put, same]
      · rw [put, if_neg same, List.map_cons, List.map_cons, ih]
        by_cases later : e.location ∈ rest.map (·.location)
        · rw [if_pos later, if_pos (List.mem_cons_of_mem _ later)]
        · rw [if_neg later, if_neg (by simpa [Ne.symm same] using later), List.cons_append]

theorem toList_pending? {b : ErrorBuffer} (apart : b.locations.Nodup) (l : Location) :
    (b.pending? l).toList = b.errors.filter (·.location = l) := by
  obtain ⟨es⟩ := b
  unfold pending?
  unfold locations at apart
  dsimp only at apart ⊢
  induction es with
  | nil => rfl
  | cons e rest ih =>
      rw [List.map_cons, List.nodup_cons] at apart
      by_cases here : e.location = l
      · have others : rest.filter (·.location = l) = [] := by
          rw [List.filter_eq_nil_iff]
          intro e' later there
          refine apart.1 ?_
          rw [here, ← of_decide_eq_true there]
          exact List.mem_map_of_mem later
        rw [List.find?_cons_of_pos (by simp [here]), List.filter_cons_of_pos (by simp [here]),
          others]
        rfl
      · rw [List.find?_cons_of_neg (by simp [here]), List.filter_cons_of_neg (by simp [here])]
        exact ih apart.2

theorem pending?_of_mem {b : ErrorBuffer} (apart : b.locations.Nodup) {e : PendingError}
    (known : e ∈ b.errors) : b.pending? e.location = some e := by
  have found : e ∈ (b.pending? e.location).toList := by
    rw [toList_pending? apart]
    exact List.mem_filter.mpr ⟨known, decide_eq_true rfl⟩
  exact Option.mem_toList.mp found

theorem recordAll_append (b : ErrorBuffer) (es es' : List PendingError) :
    b.recordAll (es ++ es') = (b.recordAll es).recordAll es' := List.foldl_append

theorem errors_recordAll_of_apart {b : ErrorBuffer} {es : List PendingError}
    (apart : ((b.errors ++ es).map (·.location)).Nodup) :
    (b.recordAll es).errors = b.errors ++ es := by
  induction es generalizing b with
  | nil => exact (List.append_nil _).symm
  | cons e rest ih =>
      have fresh : e.location ∉ b.errors.map (·.location) := by
        intro taken
        rw [List.map_append, List.nodup_append] at apart
        exact apart.2.2 _ taken _ List.mem_cons_self rfl
      have hrecord : (b.record e).errors = b.errors ++ [e] := put_of_fresh fresh
      have hrest := ih (b := b.record e)
      rw [hrecord, List.append_assoc] at hrest
      exact hrest apart

theorem recordAll_of_mem {b : ErrorBuffer} (apart : b.locations.Nodup) {es : List PendingError}
    (known : ∀ e ∈ es, e ∈ b.errors) : b.recordAll es = b := by
  induction es with
  | nil => rfl
  | cons e rest ih =>
      have hrecord : b.record e = b :=
        congrArg ErrorBuffer.mk (put_of_mem apart (known e List.mem_cons_self))
      show (b.record e).recordAll rest = b
      rw [hrecord]
      exact ih fun e' he' => known e' (List.mem_cons_of_mem e he')

end ObjectInit.ErrorBuffer
