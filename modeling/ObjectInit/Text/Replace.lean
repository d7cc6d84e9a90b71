/-! # Replacing a piece of text

`replaceAll old new s` writes `new` for the occurrences of `old` in `s`, found from left to right
and without overlap. What has been written is not searched again.
-/

namespace ObjectInit.Text

/-- Replacement over the rest of a text whose first `skip` characters belong to an occurrence
that has already been replaced. -/
def replaceFrom (old new : List Char) : Nat → List Char → List Char
  | _, [] => []
  | skip + 1, _ :: rest => replaceFrom old new skip rest
  | 0, c :: rest =>
    if old.isPrefixOf (c :: rest) then new ++ replaceFrom old new (old.length - 1) rest
    else c :: replaceFrom old new 0 rest

/-- Writes `new` for every occurrence of `old`. The empty text occurs nowhere. -/
def replaceAll (old new s : List Char) : List Char :=
  if old.isEmpty then s else replaceFrom old new 0 s

theorem replaceFrom_skip (old new : List Char) (skip : Nat) (s : List Char) :
    replaceFrom old new skip s = replaceFrom old new 0 (s.drop skip) := by
  induction skip generalizing s with
  | zero => rfl
  | succ skip ih =>
    cases s with
    | nil => simp [replaceFrom]
    | cons c rest => simpa [replaceFrom] using ih rest

/-- At an occurrence the new text is written and the search goes on behind it. -/
theorem replaceAll_append {old : List Char} (h : old ≠ []) (new s : List Char) :
    replaceAll old new (old ++ s) = new ++ replaceAll old new s := by
  cases old with
  | nil => exact absurd rfl h
  | cons c cs =>
    have occurs : (c :: cs).isPrefixOf (c :: (cs ++ s)) = true := by
      rw [List.isPrefixOf_iff_prefix]
      exact ⟨s, rfl⟩
    simp only [replaceAll, List.isEmpty_cons, Bool.false_eq_true, if_false, List.cons_append,
      replaceFrom, occurs, if_true, List.length_cons, Nat.add_sub_cancel]
    rw [replaceFrom_skip, List.drop_left]

theorem replaceAll_cons {old : List Char} {c : Char} {s : List Char}
    (h : old.isPrefixOf (c :: s) = false) (new : List Char) :
    replaceAll old new (c :: s) = c :: replaceAll old new s := by
  cases old with
  | nil => simp at h
  | cons d ds => simp [replaceAll, replaceFrom, h]

theorem replaceAll_append_of_notMem {c : Char} {s : List Char} (h : c ∉ s)
    (cs new rest : List Char) :
    replaceAll (c :: cs) new (s ++ rest) = s ++ replaceAll (c :: cs) new rest := by
  induction s with
  | nil => rfl
  | cons d s ih =>
    rw [List.mem_cons, not_or] at h
    have hnone : (c :: cs).isPrefixOf (d :: (s ++ rest)) = false := by
      simp [List.isPrefixOf, h.1]
    rw [List.cons_append, replaceAll_cons hnone, ih h.2, List.cons_append]

@[simp] theorem replaceAll_nil (old new : List Char) : replaceAll old new [] = [] := by
  simp [replaceAll, replaceFrom]

/-- To take pieces out of a text leaves as many characters of another kind as there were. -/
theorem count_replaceAll_nil {old : List Char} {c : Char} (foreign : c ∉ old) (s : List Char) :
    (replaceAll old [] s).count c = s.count c := by
  by_cases empty : old = []
  · simp [replaceAll, empty]
  cases s with
  | nil => rw [replaceAll_nil]
  | cons d rest =>
    cases occurs : old.isPrefixOf (d :: rest) with
    | false => rw [replaceAll_cons occurs, List.count_cons, List.count_cons,
        count_replaceAll_nil foreign rest]
    | true =>
      obtain ⟨behind, split⟩ := List.isPrefixOf_iff_prefix.mp occurs
      have shorter : behind.length < rest.length + 1 := by
        have hlength := congrArg List.length split
        have positive := List.length_pos_iff.mpr empty
        simp only [List.length_append, List.length_cons] at hlength
        omega
      rw [← split, replaceAll_append empty, List.nil_append, List.count_append,
        List.count_eq_zero.mpr foreign, Nat.zero_add, count_replaceAll_nil foreign behind]
termination_by s.length

end ObjectInit.Text
