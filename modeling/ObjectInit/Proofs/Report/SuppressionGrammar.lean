import ObjectInit.Options.Basic
import ObjectInit.Proofs.Report.Suppression
import ObjectInit.Proofs.Text.Pieces

/-! # The grammar of suppressing texts

A suppressing text is read from its left end, while the texts that cover a key are best described
from the right: a name, a colon and the key. The two agree because no name of the checker has a
colon.
-/

namespace ObjectInit

namespace SuppressionTable

variable {t : SuppressionTable} {text key : String}

/-! ## Written keys -/

/-- A text writes a key if it is the key, or the key with every `.invalid` in it left out. -/
def Writes (text key : String) : Prop :=
  text = key ∨ Text.IsWithout ".invalid".toList key.toList text.toList

/-- The point is the only one in the part that is left out, so that there is one way only to leave
it out. -/
theorem isWithout_invalid_iff {s short : List Char} :
    Text.IsWithout ".invalid".toList s short ↔
      short = Text.replaceAll ".invalid".toList [] s := by
  have marker : ".invalid".toList = '.' :: "invalid".toList := rfl
  rw [marker]
  exact Text.isWithout_iff (by decide)

theorem writesKey_iff : writesKey text key = true ↔ Writes text key := by
  unfold writesKey Writes shortKey
  rw [Bool.or_eq_true, decide_eq_true_iff, decide_eq_true_iff, isWithout_invalid_iff,
    ← String.toList_inj, ← String.toList_inj, String.toList_ofList]

theorem Writes.plain (writes : Writes text key) (plain : ':' ∉ key.toList) :
    ':' ∉ text.toList := by
  obtain rfl | short := writes
  · exact plain
  · rw [isWithout_invalid_iff.mp short, ← List.count_eq_zero, Text.count_replaceAll_nil (by decide),
      List.count_eq_zero]
    exact plain

/-! ## Reading against putting together -/

theorem eq_append_colon_iff {p k : String} :
    text = p ++ ":" ++ k ↔ text.toList = p.toList ++ ':' :: k.toList := by
  rw [← String.toList_inj, String.toList_append, String.toList_append, List.append_assoc]
  exact Iff.rfl

theorem splitAtFirst_of_eq {p k : String} (plain : ':' ∉ p.toList)
    (written : text = p ++ ":" ++ k) :
    Text.splitAtFirst ':' text.toList = some (p.toList, k.toList) :=
  Text.splitAtFirst_eq_some_iff.mpr ⟨plain, eq_append_colon_iff.mp written⟩

/-- A text is read as a name and a key exactly if it is put together from them. -/
theorem covers_iff (named : ∀ p ∈ t.prefixes, ':' ∉ p.toList) (plain : ':' ∉ key.toList) :
    t.covers text key = true ↔
      text = "all" ∨ text ∈ t.prefixes ∨ Writes text key ∨
        ∃ p ∈ t.prefixes, ∃ k, Writes k key ∧ text = p ++ ":" ++ k := by
  unfold covers
  rw [Bool.or_eq_true, Bool.or_eq_true, decide_eq_true_iff, List.contains_iff_mem, or_assoc]
  refine or_congr_right (or_congr_right ?_)
  cases split : Text.splitAtFirst ':' text.toList with
  | none =>
      have unsplit : ¬ ∃ p ∈ t.prefixes, ∃ k, Writes k key ∧ text = p ++ ":" ++ k := by
        rintro ⟨p, hp, k, -, written⟩
        rw [splitAtFirst_of_eq (named p hp) written] at split
        cases split
      simp only [unsplit, or_false]
      exact writesKey_iff
  | some parts =>
      obtain ⟨before, after⟩ := parts
      obtain ⟨-, htext⟩ := Text.splitAtFirst_eq_some_iff.mp split
      have unwritten : ¬ Writes text key := by
        intro writes
        refine writes.plain plain ?_
        rw [htext]
        exact List.mem_append_right before List.mem_cons_self
      simp only [unwritten, false_or, Bool.and_eq_true, List.contains_iff_mem, writesKey_iff]
      constructor
      · rintro ⟨name, writes⟩
        refine ⟨String.ofList before, name, String.ofList after, writes, ?_⟩
        rw [eq_append_colon_iff, htext, String.toList_ofList, String.toList_ofList]
      · rintro ⟨p, hp, k, writes, written⟩
        rw [splitAtFirst_of_eq (named p hp) written] at split
        obtain ⟨rfl, rfl⟩ := Prod.mk.inj (Option.some.inj split)
        rw [String.ofList_toList, String.ofList_toList]
        exact ⟨hp, writes⟩

/-- Under options that have been checked, whatever is annotated: a text covers a key without a colon
exactly if it is `all`, a name of the checker, the key as a whole or without its parts `.invalid`,
or a name, a colon and the key in one of the two forms. -/
theorem covers_iff_in_grammar {o : Options} (valid : o.fault? = none)
    (notes : List (FieldId × String)) {key : String} (plain : ':' ∉ key.toList) (text : String) :
    ((ofPrefixes o.suppressionPrefixes).annotateAll notes).covers text key = true ↔
      text = "all" ∨ text ∈ o.suppressionPrefixes ∨ Writes text key ∨
        ∃ p ∈ o.suppressionPrefixes, ∃ k, Writes k key ∧ text = p ++ ":" ++ k := by
  have hprefixes : ((ofPrefixes o.suppressionPrefixes).annotateAll notes).prefixes =
      o.suppressionPrefixes := prefixes_annotateAll _ notes
  have named : ∀ p ∈ ((ofPrefixes o.suppressionPrefixes).annotateAll notes).prefixes,
      ':' ∉ p.toList := by
    rw [hprefixes]
    exact fun p hp => (Options.fault?_eq_none_iff.mp valid p hp).2
  rw [covers_iff named plain, hprefixes]

/-- Leaving the marker out once brings another one about, which stays; a second colon belongs to
what should be the key. -/
theorem covers_iff_in_grammar_of_nested_marker :
    let o : Options := ⟨false, false, ["fbc"]⟩
    let key := "a.inv.invalidalid"
    let t := (ofPrefixes o.suppressionPrefixes).annotateAll []
    o.fault? = none ∧ ':' ∉ key.toList ∧ t.covers "fbc:a.invalid" key = true ∧
      ¬ Writes "a" key ∧ t.covers "fbc:fbc:a.invalid" key = false := by
  intro o key t
  have valid : o.fault? = none := by decide
  have plain : ':' ∉ key.toList := by decide
  have grammar := covers_iff_in_grammar valid [] plain
  have short : Writes "a.invalid" key := writesKey_iff.mp (by decide +kernel)
  have tooShort : ¬ Writes "a" key := by
    rw [← writesKey_iff]
    decide +kernel
  refine ⟨valid, plain, ?_, tooShort, by decide +kernel⟩
  exact (grammar "fbc:a.invalid").mpr
    (.inr (.inr (.inr ⟨"fbc", by decide, "a.invalid", short, by decide⟩)))

end SuppressionTable

end ObjectInit
