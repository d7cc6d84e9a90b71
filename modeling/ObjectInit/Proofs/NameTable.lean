import ObjectInit.Data.FirstOccurrence
import ObjectInit.NameTable

/-! # The reserved name

The first position belongs to the text that comes first, so only a table that is made with the empty
text is sure to keep `Name.none` for it.
-/

namespace ObjectInit.NameTable

variable {t : NameTable} {s : String}

/-! ## One text -/

theorem find?_eq_none_iff : t.find? s = none ↔ s ∉ t.texts.toList := by
  unfold find?
  rw [Option.map_eq_none_iff, Array.idxOf?_eq_none_iff, Array.mem_toList_iff]

theorem find?_of_mem (old : s ∈ t.texts.toList) :
    t.find? s = some (nameAt (t.texts.toList.idxOf s)) := by
  obtain ⟨⟨texts⟩⟩ := t
  unfold find?
  rw [List.idxOf?_toArray, List.idxOf_eq_getD_idxOf?]
  cases found : texts.idxOf? s with
  | none => exact absurd old (List.idxOf?_eq_none_iff.mp found)
  | some position => rfl

theorem intern_fst (t : NameTable) (s : String) :
    (t.intern s).1 = nameAt (t.texts.toList.idxOf s) := by
  unfold intern
  by_cases old : s ∈ t.texts.toList
  · rw [find?_of_mem old]
  · rw [find?_eq_none_iff.mpr old, List.idxOf_of_notMem old, Array.length_toList]

theorem texts_intern (t : NameTable) (s : String) :
    (t.intern s).2.texts.toList =
      if s ∈ t.texts.toList then t.texts.toList else t.texts.toList ++ [s] := by
  unfold intern
  by_cases old : s ∈ t.texts.toList
  · rw [find?_of_mem old, if_pos old]
  · rw [find?_eq_none_iff.mpr old, if_neg old, Array.toList_push]

theorem isNone_intern_iff (room : t.size < UInt32.size) (s : String) :
    (t.intern s).1.isNone = true ↔ (t.texts.toList ++ [s]).head? = some s := by
  have small : t.texts.toList.idxOf s < UInt32.size := by
    have hle : t.texts.toList.idxOf s ≤ t.texts.toList.length := List.idxOf_le_length
    exact Nat.lt_of_le_of_lt hle room
  have hzero : (t.intern s).1.isNone = true ↔ t.texts.toList.idxOf s = 0 := by
    rw [intern_fst, Name.isNone, nameAt, Nat.mod_eq_of_lt small, beq_iff_eq]
  rw [hzero, List.idxOf_eq_zero_iff_eq_nil_or_head_eq]
  cases t.texts.toList with
  | nil => simp
  | cons first rest => simp

/-! ## Several texts -/

def internAll (t : NameTable) (texts : List String) : NameTable :=
  texts.foldl (fun t s => (t.intern s).2) t

theorem internAll_concat (t : NameTable) (texts : List String) (s : String) :
    t.internAll (texts ++ [s]) = ((t.internAll texts).intern s).2 := by
  unfold internAll
  rw [List.foldl_append]
  rfl

theorem texts_internAll (distinct : t.texts.toList.eraseDups = t.texts.toList)
    (texts : List String) :
    (t.internAll texts).texts.toList = (t.texts.toList ++ texts).eraseDups := by
  induction texts using List.reverseRecOn with
  | nil => rw [List.append_nil, distinct]; rfl
  | append_singleton texts s ih =>
      rw [internAll_concat, texts_intern, ih, ← List.append_assoc, eraseDups_concat]
      simp only [List.mem_eraseDups]

theorem texts_withEmptyName (texts : List String) :
    (withEmptyName.internAll texts).texts.toList = ("" :: texts).eraseDups :=
  texts_internAll rfl texts

theorem texts_bare (texts : List String) :
    (bare.internAll texts).texts.toList = texts.eraseDups := texts_internAll rfl texts

theorem isEmpty_iff : t.isEmpty = true ↔ t.texts.toList.length ≤ 1 := by
  unfold isEmpty size
  rw [Array.length_toList, decide_eq_true_iff]

/-- Whatever texts a table is given: if it is made with the empty text, then no other text has
`Name.none` as long as names last, and it counts as empty until there is another one. If it is made
without texts, then the first text has `Name.none`, and the table counts as empty until there is a
second one. -/
theorem none_kept_for_first_text (texts : List String) (s : String) :
    ((withEmptyName.internAll texts).size < UInt32.size →
        (((withEmptyName.internAll texts).intern s).1.isNone = true ↔ s = "")) ∧
      ((withEmptyName.internAll texts).isEmpty = true ↔ ∀ s ∈ texts, s = "") ∧
      ((bare.internAll texts).size < UInt32.size →
        (((bare.internAll texts).intern s).1.isNone = true ↔ (texts ++ [s]).head? = some s)) ∧
      ((bare.internAll texts).isEmpty = true ↔ ∀ s ∈ texts, texts.head? = some s) := by
  refine ⟨fun room => ?_, ?_, fun room => ?_, ?_⟩
  · rw [isNone_intern_iff room, texts_withEmptyName, List.eraseDups_cons]
    simp [eq_comm]
  · rw [isEmpty_iff, texts_withEmptyName, length_eraseDups_le_one_iff]
    simp [eq_comm]
  · rw [isNone_intern_iff room, texts_bare, List.head?_append, List.head?_append, head?_eraseDups]
  · rw [isEmpty_iff, texts_bare, length_eraseDups_le_one_iff]

/-- Of three texts the empty one comes second. -/
theorem none_kept_for_first_text_of_name_first :
    let texts := ["A", "", "B"]
    (withEmptyName.internAll texts).size < UInt32.size ∧ (bare.internAll texts).size < UInt32.size ∧
      ¬ ((withEmptyName.internAll texts).intern "A").1.isNone = true ∧
      ¬ (withEmptyName.internAll texts).isEmpty = true ∧
      ((bare.internAll texts).intern "A").1.isNone = true ∧
      ¬ (bare.internAll texts).isEmpty = true := by
  intro texts
  have room : (withEmptyName.internAll texts).size < UInt32.size := by decide +kernel
  have bareRoom : (bare.internAll texts).size < UInt32.size := by decide +kernel
  obtain ⟨reserved, other, first, second⟩ := none_kept_for_first_text texts "A"
  exact ⟨room, bareRoom, by rw [reserved room]; decide, by rw [other]; decide,
    (first bareRoom).mpr rfl, by rw [second]; decide⟩

/-- A table that is made without texts gives the reserved name away, and does not notice the text
that has it. -/
theorem bare_gives_none_away :
    (bare.intern "A").1.isNone = true ∧ (bare.internAll ["A"]).isEmpty = true := by
  decide +kernel

end ObjectInit.NameTable
