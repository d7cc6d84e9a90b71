/-! # Splitting at a separator

A text is split at the first separator in it; later ones belong to the second part.
-/

namespace ObjectInit.Text

/-- The texts before and after the first separator, if there is one. -/
def splitAtFirst (separator : Char) : List Char → Option (List Char × List Char)
  | [] => none
  | c :: rest =>
    if c = separator then some ([], rest)
    else (splitAtFirst separator rest).map fun (before, after) => (c :: before, after)

theorem splitAtFirst_eq_some_iff {separator : Char} {s before after : List Char} :
    splitAtFirst separator s = some (before, after) ↔
      separator ∉ before ∧ s = before ++ separator :: after := by
  induction s generalizing before with
  | nil => simp [splitAtFirst]
  | cons c rest ih =>
    by_cases hc : c = separator
    · subst hc
      cases before with
      | nil => simp [splitAtFirst, eq_comm]
      | cons d ds =>
        simp only [splitAtFirst, if_true, Option.some.injEq, Prod.mk.injEq, List.cons_append,
          List.cons.injEq, List.mem_cons, not_or]
        constructor
        · rintro ⟨h, _⟩
          cases h
        · rintro ⟨⟨hne, _⟩, he, _⟩
          exact absurd he hne
    · cases before with
      | nil =>
        simp only [splitAtFirst, if_neg hc, Option.map_eq_some_iff, Prod.exists, Prod.mk.injEq,
          List.nil_append, List.cons.injEq]
        constructor
        · rintro ⟨_, _, _, h, _⟩
          cases h
        · rintro ⟨_, he, _⟩
          exact absurd he hc
      | cons d ds =>
        simp only [splitAtFirst, if_neg hc, Option.map_eq_some_iff, Prod.exists, Prod.mk.injEq,
          List.cons_append, List.cons.injEq, List.mem_cons, not_or]
        constructor
        · rintro ⟨b, a, hs, ⟨rfl, rfl⟩, rfl⟩
          obtain ⟨hb, rfl⟩ := ih.mp hs
          exact ⟨⟨fun h => hc h.symm, hb⟩, rfl, rfl⟩
        · rintro ⟨⟨_, hds⟩, rfl, hrest⟩
          exact ⟨ds, after, ih.mpr ⟨hds, hrest⟩, ⟨rfl, rfl⟩, rfl⟩

theorem splitAtFirst_eq_none_iff {separator : Char} {s : List Char} :
    splitAtFirst separator s = none ↔ separator ∉ s := by
  induction s with
  | nil => simp [splitAtFirst]
  | cons c rest ih =>
    rw [List.mem_cons, not_or, ← ih]
    by_cases hc : c = separator
    · simp [splitAtFirst, hc]
    · simp [splitAtFirst, hc, Ne.symm hc]

end ObjectInit.Text
