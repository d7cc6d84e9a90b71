import ObjectInit.Proofs.Report.Diagnostics

/-! # Silencing a key by writing it

What stands before the first colon of a written key is taken for a name of the checker. So a key
without a colon always silences itself, while one with a colon does so only if it is as a whole a
name of the checker.
-/

namespace ObjectInit

namespace SuppressionTable

variable {t : SuppressionTable} {f : FieldId} {key : String}

/-! ## Texts of a field -/

def textsOf (t : SuppressionTable) (f : FieldId) : List String := (t.annotations.get? f).getD []

theorem suppresses_eq (t : SuppressionTable) (f : FieldId) (key : String) :
    t.suppresses f key = (t.textsOf f).any fun text => t.covers text key := rfl

theorem textsOf_annotate (t : SuppressionTable) (f : FieldId) (text : String) (g : FieldId) :
    (t.annotate f text).textsOf g = if g = f then t.textsOf g ++ [text] else t.textsOf g := by
  unfold annotate textsOf
  by_cases same : g = f
  · rw [if_pos same, same, FiniteMap.get?_insert_self, Option.getD_some]
  · rw [if_neg same, FiniteMap.get?_insert_of_ne same]

def annotateAll (t : SuppressionTable) (notes : List (FieldId × String)) : SuppressionTable :=
  notes.foldl (fun t note => t.annotate note.1 note.2) t

theorem annotateAll_concat (t : SuppressionTable) (notes : List (FieldId × String))
    (note : FieldId × String) :
    t.annotateAll (notes ++ [note]) = (t.annotateAll notes).annotate note.1 note.2 := by
  unfold annotateAll
  rw [List.foldl_append]
  rfl

theorem prefixes_annotateAll (t : SuppressionTable) (notes : List (FieldId × String)) :
    (t.annotateAll notes).prefixes = t.prefixes := by
  induction notes generalizing t with
  | nil => rfl
  | cons note notes ih => exact ih (t.annotate note.1 note.2)

theorem mem_textsOf_annotateAll (t : SuppressionTable) (notes : List (FieldId × String))
    (f : FieldId) (text : String) :
    text ∈ (t.annotateAll notes).textsOf f ↔ text ∈ t.textsOf f ∨ (f, text) ∈ notes := by
  induction notes generalizing t with
  | nil => simp [annotateAll]
  | cons note notes ih =>
      obtain ⟨g, new⟩ := note
      have hnote : text ∈ (t.annotate g new).textsOf f ↔
          text ∈ t.textsOf f ∨ (f, text) = (g, new) := by
        rw [textsOf_annotate]
        by_cases same : f = g
        · simp [same]
        · simp [same]
      show text ∈ ((t.annotate g new).annotateAll notes).textsOf f ↔ _
      rw [ih, hnote, List.mem_cons, or_assoc]

/-! ## A key as a suppressing text -/

/-- What stands behind a colon of a key does not write the key: it has fewer colons, and leaving
out parts of the key takes none away. -/
theorem writesKey_behind_colon {before after : List Char}
    (split : key.toList = before ++ ':' :: after) :
    writesKey (String.ofList after) key = false := by
  have fewer : after.count ':' < key.toList.count ':' := by
    rw [split, List.count_append, List.count_cons_self]
    omega
  have whole : String.ofList after ≠ key := by
    intro same
    rw [← same, String.toList_ofList] at fewer
    exact Nat.lt_irrefl _ fewer
  have short : String.ofList after ≠ shortKey key := by
    intro same
    have hsame : after = Text.replaceAll ".invalid".toList [] key.toList :=
      String.ofList_inj.mp same
    rw [hsame, Text.count_replaceAll_nil (by decide)] at fewer
    exact Nat.lt_irrefl _ fewer
  simp [writesKey, whole, short]

theorem covers_self_iff : t.covers key key = true ↔ ':' ∉ key.toList ∨ key ∈ t.prefixes := by
  unfold covers
  cases split : Text.splitAtFirst ':' key.toList with
  | none =>
      have plain := Text.splitAtFirst_eq_none_iff.mp split
      simp [writesKey, plain]
  | some parts =>
      obtain ⟨before, after⟩ := parts
      obtain ⟨-, hkey⟩ := Text.splitAtFirst_eq_some_iff.mp split
      have colon : ':' ∈ key.toList := by
        rw [hkey]
        exact List.mem_append_right before List.mem_cons_self
      have notAll : key ≠ "all" := by
        rintro rfl
        exact absurd colon (by decide)
      simp [writesKey_behind_colon hkey, colon, notAll]

theorem suppresses_annotate_key (idle : t.covers key key = false) (f g : FieldId) :
    (t.annotate f key).suppresses g key = t.suppresses g key := by
  have same : (t.annotate f key).covers = t.covers := rfl
  rw [suppresses_eq, suppresses_eq, textsOf_annotate, same]
  by_cases here : g = f
  · rw [if_pos here, List.any_append, List.any_cons, idle]
    simp
  · rw [if_neg here]

end SuppressionTable

/-! ## Reports -/

namespace ErrorBuffer

variable {b : ErrorBuffer} {e : PendingError} {isExempt : FieldId → Bool}
  {t : DeclarationTable} {names : NameTable}

theorem report_congr_suppression {suppression suppression' : Suppression}
    (found : b.pending? e.location = some e)
    (same : ∀ f, suppression f e.key = suppression' f e.key) :
    b.report isExempt suppression t names e.location =
      b.report isExempt suppression' t names e.location := by
  rw [report_of_pending found, report_of_pending found]
  unfold PendingError.remaining
  simp only [same]

end ErrorBuffer

namespace SuppressionTable

/-- Is a finding with the key silenced, whatever else is written and exempt, once the key is written
on each of its fields? -/
def WrittenKeySilences (prefixes : List String) (key : String) : Prop :=
  ∀ (notes : List (FieldId × String)) (b : ErrorBuffer) (e : PendingError)
    (isExempt : FieldId → Bool) (t : DeclarationTable) (names : NameTable),
    b.pending? e.location = some e → e.key = key → (∀ f ∈ e.fields, (f, key) ∈ notes) →
    (b.report isExempt ((ofPrefixes prefixes).annotateAll notes).suppresses
      t names e.location).1 = []

section Written

variable {prefixes : List String} {key : String}

theorem covers_annotateAll_self_iff (notes : List (FieldId × String)) :
    ((ofPrefixes prefixes).annotateAll notes).covers key key = true ↔
      ':' ∉ key.toList ∨ key ∈ prefixes := by
  rw [covers_self_iff, prefixes_annotateAll]
  rfl

theorem report_concat_key (colon : ':' ∈ key.toList) (unnamed : key ∉ prefixes)
    (notes : List (FieldId × String)) (f : FieldId) {b : ErrorBuffer} {e : PendingError}
    (found : b.pending? e.location = some e) (hkey : e.key = key) (isExempt : FieldId → Bool)
    (t : DeclarationTable) (names : NameTable) :
    b.report isExempt ((ofPrefixes prefixes).annotateAll (notes ++ [(f, key)])).suppresses
        t names e.location =
      b.report isExempt ((ofPrefixes prefixes).annotateAll notes).suppresses
        t names e.location := by
  have idle : ((ofPrefixes prefixes).annotateAll notes).covers key key = false := by
    rw [← Bool.not_eq_true, covers_annotateAll_self_iff]
    exact fun plain => plain.elim (fun noColon => noColon colon) unnamed
  refine ErrorBuffer.report_congr_suppression found fun g => ?_
  rw [hkey, annotateAll_concat]
  exact suppresses_annotate_key idle f g

theorem writtenKeySilences_of_plain (plain : ':' ∉ key.toList ∨ key ∈ prefixes) :
    WrittenKeySilences prefixes key := by
  intro notes b e isExempt t names found hkey written
  rw [ErrorBuffer.report_of_pending found, PendingError.diagnostics_eq_nil_iff,
    PendingError.remaining_eq_nil_iff]
  intro f hf
  have suppressed : ((ofPrefixes prefixes).annotateAll notes).suppresses f e.key = true := by
    rw [suppresses_eq, List.any_eq_true, hkey]
    exact ⟨key, (mem_textsOf_annotateAll _ notes f key).mpr (.inr (written f hf)),
      (covers_annotateAll_self_iff notes).mpr plain⟩
  exact .inl suppressed

theorem not_writtenKeySilences (colon : ':' ∈ key.toList) (unnamed : key ∉ prefixes) :
    ¬ WrittenKeySilences prefixes key := by
  intro silences
  -- A finding about one field, on which nothing but the key is written.
  let f : FieldId := ⟨⟨0⟩, ⟨0⟩⟩
  let e : PendingError := { location := ⟨0⟩, fields := [f], key }
  have found : ErrorBuffer.pending? ⟨[e]⟩ e.location = some e := by simp [ErrorBuffer.pending?]
  have silent := silences [(f, key)] ⟨[e]⟩ e (fun _ => false) ∅ .bare found rfl (by simp [e])
  have same := report_concat_key colon unnamed [] f found rfl (fun _ => false) ∅ .bare
  rw [List.nil_append] at same
  rw [same, ErrorBuffer.report_of_pending found, PendingError.diagnostics_eq_nil_iff] at silent
  exact absurd silent (List.cons_ne_nil f [])

end Written

/-- To write a key on all fields of a finding silences it exactly if the key has no colon or is a
name of the checker. To write any other key changes no report about it. -/
theorem writtenKeySilences_iff (prefixes : List String) (key : String) :
    (WrittenKeySilences prefixes key ↔ ':' ∉ key.toList ∨ key ∈ prefixes) ∧
      (':' ∈ key.toList → key ∉ prefixes →
        ∀ (notes : List (FieldId × String)) (f : FieldId) (b : ErrorBuffer) (e : PendingError)
          (isExempt : FieldId → Bool) (t : DeclarationTable) (names : NameTable),
          b.pending? e.location = some e → e.key = key →
          b.report isExempt ((ofPrefixes prefixes).annotateAll (notes ++ [(f, key)])).suppresses
              t names e.location =
            b.report isExempt ((ofPrefixes prefixes).annotateAll notes).suppresses
              t names e.location) := by
  refine ⟨⟨?_, writtenKeySilences_of_plain⟩, ?_⟩
  · intro silences
    by_cases colon : ':' ∈ key.toList
    · by_cases named : key ∈ prefixes
      · exact .inr named
      · exact absurd silences (not_writtenKeySilences colon named)
    · exact .inl colon
  · intro colon unnamed notes f b e isExempt t names found hkey
    exact report_concat_key colon unnamed notes f found hkey isExempt t names

/-- The key of a checker of its own, with a colon in it, does not silence itself. -/
theorem colon_key_not_silenced :
    let f : FieldId := ⟨⟨1⟩, ⟨1⟩⟩
    let e : PendingError := { location := ⟨5⟩, fields := [f], key := "custom:key" }
    let s := (ofPrefixes ["initialization", "fbc"]).annotateAll [(f, "custom:key")]
    (ErrorBuffer.report (fun _ => false) s.suppresses ∅ .withEmptyName ⟨[e]⟩ ⟨5⟩).1 ≠ [] := by
  decide +kernel

end SuppressionTable

end ObjectInit
