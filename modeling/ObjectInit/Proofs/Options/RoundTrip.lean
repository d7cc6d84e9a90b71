import Mathlib.Data.List.Perm.Basic
import ObjectInit.Options.Reader
import ObjectInit.Proofs.Options.Json

/-! # Options and their texts

A text is read in four steps: tokens, a document, a draft of settings, options whose prefixes are
judged last. Main statement: an object of settings is read as the options it gives, whichever text
it is written as.
-/

namespace ObjectInit.Options

def settingNames : List String :=
  ["assumeInitialized", "checkPrimitives", "suppressWarningsPrefixes"]

/-! ## Drafts -/

namespace Draft

variable {d d' : Draft}

/-- What has been given, each setting by its name. -/
def entries (d : Draft) : List (String × Setting) :=
  (d.assumeInitialized.map fun b => ("assumeInitialized", Setting.flag b)).toList ++
    (d.checkPrimitives.map fun b => ("checkPrimitives", Setting.flag b)).toList ++
    (d.suppressionPrefixes.map fun ps => ("suppressWarningsPrefixes", Setting.names ps)).toList

theorem mem_entries_iff {e : String × Setting} :
    e ∈ d.entries ↔
      (∃ b, d.assumeInitialized = some b ∧ ("assumeInitialized", .flag b) = e) ∨
        (∃ b, d.checkPrimitives = some b ∧ ("checkPrimitives", .flag b) = e) ∨
        ∃ ps, d.suppressionPrefixes = some ps ∧ ("suppressWarningsPrefixes", .names ps) = e := by
  simp [entries, or_assoc]

theorem keys_sublist (d : Draft) : (d.entries.map Prod.fst).Sublist settingNames := by
  obtain ⟨a, c, p⟩ := d
  cases a <;> cases c <;> cases p <;> simp [entries, settingNames]

theorem eq_of_entries_perm (perm : d.entries.Perm d'.entries) : d = d' := by
  obtain ⟨a, c, p⟩ := d
  obtain ⟨a', c', p'⟩ := d'
  have same (e : String × Setting) := perm.mem_iff (a := e)
  simp only [mem_entries_iff] at same
  congr
  · ext b
    simpa using same ("assumeInitialized", .flag b)
  · ext b
    simpa using same ("checkPrimitives", .flag b)
  · ext1 ps
    simpa using same ("suppressWarningsPrefixes", .names ps)

theorem entries_of_take {e : String × Setting} (taken : d.take e.1 e.2 = some d') :
    d'.entries.Perm (e :: d.entries) := by
  obtain ⟨a, c, p⟩ := d
  obtain ⟨key, s⟩ := e
  cases s with
  | flag b =>
      simp only [take] at taken
      split_ifs at taken with assume check
      · obtain ⟨rfl, free⟩ := assume
        cases taken
        rw [Option.isNone_iff_eq_none.mp free]
        exact .refl _
      · obtain ⟨rfl, free⟩ := check
        cases taken
        rw [Option.isNone_iff_eq_none.mp free]
        cases a
        · exact .refl _
        · exact .swap ..
  | names ps =>
      simp only [take] at taken
      split_ifs at taken with given
      obtain ⟨rfl, free⟩ := given
      cases taken
      rw [Option.isNone_iff_eq_none.mp free]
      simp only [entries, Option.map_some, Option.toList_some, Option.map_none,
        Option.toList_none, List.append_nil]
      exact List.perm_append_singleton _ _

theorem exists_take {e : String × Setting} (given : e ∈ d.entries)
    (free : e.1 ∉ d'.entries.map Prod.fst) : ∃ d₁, d'.take e.1 e.2 = some d₁ := by
  obtain ⟨a, c, p⟩ := d'
  obtain ⟨b, -, rfl⟩ | ⟨b, -, rfl⟩ | ⟨ps, -, rfl⟩ := mem_entries_iff.mp given
  · cases a with
    | none => exact ⟨_, by simp [take]; rfl⟩
    | some _ => simp [entries] at free
  · cases c with
    | none => exact ⟨_, by simp [take]; rfl⟩
    | some _ => simp [entries] at free
  · cases p with
    | none => exact ⟨_, by simp [take]; rfl⟩
    | some _ => simp [entries] at free

theorem entries_of_takeAll {es : List (String × Setting)} (taken : d.takeAll es = some d') :
    d'.entries.Perm (es ++ d.entries) := by
  induction es generalizing d with
  | nil =>
      cases taken
      exact .refl _
  | cons e es ih =>
      obtain ⟨d₁, first, others⟩ := Option.bind_eq_some_iff.mp taken
      exact (ih others).trans (((entries_of_take first).append_left es).trans List.perm_middle)

theorem takeAll_of_perm {es : List (String × Setting)} (perm : (es ++ d'.entries).Perm d.entries) :
    d'.takeAll es = some d := by
  induction es generalizing d' with
  | nil => rw [eq_of_entries_perm perm, takeAll]
  | cons e es ih =>
      have nodup : ((e :: es ++ d'.entries).map Prod.fst).Nodup :=
        (perm.map Prod.fst).nodup_iff.mpr (d.keys_sublist.nodup (by decide))
      have free : e.1 ∉ d'.entries.map Prod.fst := by
        rw [List.cons_append, List.map_cons, List.nodup_cons, List.map_append] at nodup
        exact fun old => nodup.1 (List.mem_append_right _ old)
      obtain ⟨d₁, taken⟩ := exists_take (perm.subset List.mem_cons_self) free
      rw [takeAll, taken]
      exact ih ((((entries_of_take taken).append_left es).trans List.perm_middle).trans perm)

/-- Settings are taken in any order, each of them once. -/
theorem takeAll_eq_some_iff {es : List (String × Setting)} :
    takeAll {} es = some d ↔ es.Perm d.entries := by
  constructor
  · intro taken
    simpa [entries] using (entries_of_takeAll taken).symm
  · intro perm
    exact takeAll_of_perm (by simpa [entries] using perm)

def members (d : Draft) : List (String × Json) := d.entries.map fun e => (e.1, e.2.json)

theorem exists_entries_of_perm {ms : List (String × Json)} (perm : ms.Perm d.members) :
    ∃ es : List (String × Setting), es.Perm d.entries ∧ (Document.record es).json = .object ms := by
  have paired : List.Forall₂ (fun m e => m = (e.1, e.2.json)) d.members d.entries :=
    List.forall₂_map_left_iff.mpr (List.forall₂_same.mpr fun _ _ => rfl)
  obtain ⟨es, paired', perm'⟩ := List.perm_comp_forall₂ perm paired
  rw [← List.forall₂_map_right_iff, List.forall₂_eq_eq_eq] at paired'
  exact ⟨es, perm', by rw [paired']; rfl⟩

theorem map_fst_members (d : Draft) : d.members.map Prod.fst = d.entries.map Prod.fst := by
  unfold members
  rw [List.map_map]
  rfl

end Draft

/-! ## Decoding -/

theorem writes_iff_read {text : String} {doc : Document} :
    doc.json.Writes text ↔
      ∃ ts, Token.tokens? text.toList = some ts ∧ Document.ofTokens? ts = some doc := by
  simp only [Document.ofTokens?_eq_some_iff]
  constructor
  · intro written
    obtain ⟨ts, row⟩ := Lexeme.exists_tokens doc.plain_json
    exact ⟨ts, (Lexeme.tokens?_eq_some_iff written).mpr row, row.symm⟩
  · rintro ⟨ts, read, row⟩
    unfold Json.Writes
    rw [← row]
    exact Lexeme.writesRow_of_tokens? read

theorem decode?_eq_some_iff {text : String} {o : Options} :
    decode? text = some o ↔
      ∃ doc d, doc.json.Writes text ∧ Draft.ofDocument? doc = some d ∧ d.toOptions = o := by
  unfold decode?
  simp only [Option.map_eq_some_iff, Option.bind_eq_some_iff, writes_iff_read]
  constructor
  · rintro ⟨d, ⟨doc, read, drafted⟩, same⟩
    exact ⟨doc, d, read, drafted, same⟩
  · rintro ⟨doc, d, read, drafted, same⟩
    exact ⟨d, ⟨doc, read, drafted⟩, same⟩

theorem eq_json_of_writes {text : String} {v : Json} {doc : Document} (written : v.Writes text)
    (written' : doc.json.Writes text) : v = doc.json := by
  obtain ⟨ts, row⟩ := Lexeme.exists_tokens doc.plain_json
  have read := (Lexeme.tokens?_eq_some_iff written').mpr row
  exact Json.lexemes_injective (((Lexeme.tokens?_eq_some_iff written).mp read).trans row.symm)

/-- An object describes options exactly if its members are settings of a draft in some order. -/
theorem decode?_object_eq_some_iff {text : String} {ms : List (String × Json)}
    (written : (Json.object ms).Writes text) {o : Options} :
    decode? text = some o ↔ ∃ d : Draft, ms.Perm d.members ∧ d.toOptions = o := by
  rw [decode?_eq_some_iff]
  constructor
  · rintro ⟨doc, d, written', drafted, same⟩
    have value := eq_json_of_writes written written'
    cases doc with
    | row ss => cases value
    | record es =>
        cases value
        exact ⟨d, (Draft.takeAll_eq_some_iff.mp drafted).map _, same⟩
  · rintro ⟨d, perm, same⟩
    obtain ⟨es, perm', value⟩ := Draft.exists_entries_of_perm perm
    rw [← value] at written
    exact ⟨.record es, d, written, Draft.takeAll_eq_some_iff.mpr perm', same⟩

/-! ## Judging -/

theorem ofJson_of_decode?_eq_none {text : String} (undecoded : decode? text = none) :
    ofJson text = .error .malformed := by
  unfold ofJson
  rw [undecoded]

theorem ofJson_of_sound {text : String} {o : Options} (decoded : decode? text = some o)
    (sound : ∀ p ∈ o.suppressionPrefixes, p ≠ "" ∧ ':' ∉ p.toList) : ofJson text = .ok o := by
  unfold ofJson
  simp only [decoded, fault?_eq_none_iff.mpr sound]

theorem ofJson_of_first_fault {text : String} {o : Options} (decoded : decode? text = some o)
    {good rest : List String} {bad : String} {fault : OptionsError}
    (split : o.suppressionPrefixes = good ++ bad :: rest)
    (sound : ∀ p ∈ good, p ≠ "" ∧ ':' ∉ p.toList) (faulty : prefixFault? bad = some fault) :
    ofJson text = .error fault := by
  have before : good.findSome? prefixFault? = none :=
    List.findSome?_eq_none_iff.mpr fun p hp => prefixFault?_eq_none_iff.mpr (sound p hp)
  have found : o.fault? = some fault := by
    unfold fault?
    rw [split, List.findSome?_append, before, List.findSome?_cons, faulty]
    rfl
  unfold ofJson
  simp only [decoded, found]

/-! ## Odd texts -/

section

open Lexeme Token

/-- Characters of a string by letters and by units in either case, and blanks beside marks. -/
theorem writes_of_odd_spellings :
    (Json.object [("suppressWarningsPrefixes", .array [.string "ü\"😀"]),
      ("checkPrimitives", .bool true)]).Writes
        (" \x7b\"suppressWarningsPrefixes\": [\"\\u00Fc\\\"\\ud83d\\uDE00\"]\t," ++
          "\"checkPrimitives\":true\x7d") := by
  have face : SpellsChar '😀'
      (['\\', 'u', 'd', '8', '3', 'd'] ++ ['\\', 'u', 'D', 'E', '0', '0']) :=
    .pair (show 0x3D < 0x400 by decide) (show 0x200 < 0x400 by decide) (by decide)
      (unit?_eq_some_iff.mp (by decide)) (unit?_eq_some_iff.mp (by decide))
  have spelled : Spells ['ü', '"', '😀'] (['\\', 'u', '0', '0', 'F', 'c'] ++ (['\\', '"'] ++ _)) :=
    .cons (.unit (unit?_eq_some_iff.mp (by decide)))
      (.cons (.shorthand (by decide)) (.cons face .nil))
  have chars : ['ü', '"', '😀'] = "ü\"😀".toList := by decide +kernel
  rw [chars] at spelled
  have prefixes := writes_text_self "suppressWarningsPrefixes" (by decide +kernel)
  have primitives := writes_text_self "checkPrimitives" (by decide +kernel)
  have tail := WritesRow.cons (show Blanks ['\t'] by decide) .comma (.next primitives
    (.next .colon (.next .yes (.next .rightBrace (.nil (show Blanks [] by decide))))))
  have row := WritesRow.cons (show Blanks [' '] by decide) .leftBrace (.next prefixes
    (.next .colon (.cons (show Blanks [' '] by decide) .leftBracket (.next (.text spelled)
      (.next .rightBracket tail)))))
  exact Json.writes_of_row row (by decide +kernel)

/-- One key in two spellings, the second time with a value that no setting has. -/
theorem writes_of_repeated_key :
    (Json.object [("checkPrimitives", .bool true), ("checkPrimitives", .null)]).Writes
      "\x7b\"checkPrimitives\":true,\"check\\u0050rimitives\":null\x7d" := by
  have spelled : Spells "checkPrimitives".toList
      ("check".toList ++ (['\\', 'u', '0', '0', '5', '0'] ++ "rimitives".toList)) := by
    have chars : "checkPrimitives".toList = "check".toList ++ 'P' :: "rimitives".toList := by
      decide +kernel
    rw [chars]
    exact (spells_self (by decide +kernel)).append (.cons
      (.unit (unit?_eq_some_iff.mp (by decide))) (spells_self (by decide +kernel)))
  have row := WritesRow.next .leftBrace (.next (writes_text_self "checkPrimitives"
    (by decide +kernel)) (.next .colon (.next .yes (.next .comma (.next (.text spelled)
      (.next .colon (.next .null (.next .rightBrace (.nil (show Blanks [] by decide))))))))))
  exact Json.writes_of_row row (by decide +kernel)

end

/-! ## Options and their texts -/

theorem Draft.exists_writes {d : Draft} {ms : List (String × Json)} (perm : ms.Perm d.members) :
    ∃ text, (Json.object ms).Writes text := by
  obtain ⟨es, -, value⟩ := Draft.exists_entries_of_perm perm
  obtain ⟨ts, row⟩ := Lexeme.exists_tokens (Document.record es).plain_json
  obtain ⟨cs, written⟩ := Lexeme.exists_writesRow ts
  rw [← value]
  exact ⟨_, Json.writes_of_row (row ▸ written) rfl⟩

theorem exists_ofJson_eq_ok {o : Options}
    (sound : ∀ p ∈ o.suppressionPrefixes, p ≠ "" ∧ ':' ∉ p.toList) :
    ∃ text, ofJson text = .ok o := by
  let d : Draft := ⟨some o.assumeInitialized, some o.checkPrimitives, some o.suppressionPrefixes⟩
  obtain ⟨text, written⟩ := Draft.exists_writes (.refl d.members)
  have decoded : decode? text = some o :=
    (decode?_object_eq_some_iff written).mpr ⟨d, .refl _, rfl⟩
  exact ⟨text, ofJson_of_sound decoded sound⟩

/-- An object whose members are settings in any order, each of them at most once, is read as options
with these settings and with the defaults for all others, however it is written, if the prefixes are
sound. An object with a member by another name, or with two by the same name, is refused. A text
that describes options with a bad prefix is refused for the first of them. -/
theorem ofJson_undoes_writing (text : String) :
    (∀ (ms : List (String × Json)) (d : Draft), (Json.object ms).Writes text →
      ms.Perm d.members →
        let o : Options := ⟨d.assumeInitialized.getD ({} : Options).assumeInitialized,
          d.checkPrimitives.getD ({} : Options).checkPrimitives,
          d.suppressionPrefixes.getD ({} : Options).suppressionPrefixes⟩
        decode? text = some o ∧
          ((∀ ps ∈ d.suppressionPrefixes, ∀ p ∈ ps, p ≠ "" ∧ ':' ∉ p.toList) →
            ofJson text = .ok o)) ∧
      (∀ ms : List (String × Json), (Json.object ms).Writes text →
        (∃ m ∈ ms, m.1 ∉ settingNames) ∨ ¬ (ms.map Prod.fst).Nodup →
          ofJson text = .error .malformed) ∧
      ∀ o good bad rest, decode? text = some o → o.suppressionPrefixes = good ++ bad :: rest →
        (∀ p ∈ good, p ≠ "" ∧ ':' ∉ p.toList) →
          (bad = "" → ofJson text = .error .emptyPrefix) ∧
            (':' ∈ bad.toList → ofJson text = .error (.prefixContainsColon bad)) := by
  refine ⟨fun ms d written perm => ?given, fun ms written wrong => ?refused,
    fun o good bad rest decoded split sound => ?judged⟩
  case given =>
    intro o
    have decoded : decode? text = some o :=
      (decode?_object_eq_some_iff written).mpr ⟨d, perm, rfl⟩
    refine ⟨decoded, fun sound => ofJson_of_sound decoded ?_⟩
    show ∀ p ∈ d.suppressionPrefixes.getD _, _
    cases given : d.suppressionPrefixes with
    | none => decide
    | some ps => exact sound ps given
  case refused =>
    apply ofJson_of_decode?_eq_none
    by_contra accepted
    obtain ⟨o, decoded⟩ := Option.ne_none_iff_exists'.mp accepted
    obtain ⟨d, perm, -⟩ := (decode?_object_eq_some_iff written).mp decoded
    have keys := perm.map Prod.fst
    rw [d.map_fst_members] at keys
    obtain ⟨m, member, unknown⟩ | repeated := wrong
    · have key : m.1 ∈ d.entries.map Prod.fst := keys.subset (List.mem_map_of_mem member)
      exact unknown (d.keys_sublist.subset key)
    · exact repeated (keys.nodup_iff.mpr (d.keys_sublist.nodup (by decide)))
  case judged =>
    constructor
    · rintro rfl
      exact ofJson_of_first_fault decoded split sound (by decide)
    · intro colon
      have filled : bad ≠ "" := by
        rintro rfl
        cases colon
      refine ofJson_of_first_fault decoded split sound ?_
      unfold prefixFault?
      rw [if_neg filled, if_pos colon]

theorem ofJson_undoes_writing_of_odd_texts :
    ofJson (" \x7b\"suppressWarningsPrefixes\": [\"\\u00Fc\\\"\\ud83d\\uDE00\"]\t," ++
        "\"checkPrimitives\":true\x7d") = .ok ⟨false, true, ["ü\"😀"]⟩ ∧
      ofJson "\x7b\"checkPrimitives\":true,\"check\\u0050rimitives\":null\x7d" =
        .error .malformed ∧
      ofJson "\x7b\"suppressWarningsPrefixes\":[\"fbc\",\"a:b\",\"\"]\x7d" =
        .error (.prefixContainsColon "a:b") := by
  refine ⟨?_, ?_, ?_⟩
  · refine ((ofJson_undoes_writing _).1 _ ⟨none, some true, some ["ü\"😀"]⟩
      writes_of_odd_spellings (.swap ..)).2 fun ps given => ?_
    cases given
    decide +kernel
  · exact (ofJson_undoes_writing _).2.1 _ writes_of_repeated_key (.inr (by decide))
  · have decoded : decode? "\x7b\"suppressWarningsPrefixes\":[\"fbc\",\"a:b\",\"\"]\x7d" =
        some ⟨false, false, ["fbc", "a:b", ""]⟩ := by
      decide +kernel
    exact ((ofJson_undoes_writing _).2.2 _ ["fbc"] "a:b" [""] decoded rfl (by decide +kernel)).2
      (by decide +kernel)

end ObjectInit.Options
