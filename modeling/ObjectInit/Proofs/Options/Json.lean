import ObjectInit.Options.Document
import ObjectInit.Proofs.Options.Lexeme

/-! # JSON values

A JSON value is written as one row of lexemes, and no row is that of two values. Main statement: a
row of tokens is read as a document exactly if it is the row of this document as a value.
-/

namespace ObjectInit.Options

/-- A JSON value; the members of an object in their order, repeated ones included. -/
inductive Json
  | null
  | bool (value : Bool)
  | number (literal : List Char)
  | string (text : String)
  | array (values : List Json)
  | object (members : List (String × Json))

namespace Json

/-! ## Rows -/

mutual

def lexemes : Json → List Lexeme
  | null => [.null]
  | bool b => [.token (.truth b)]
  | number literal => [.number literal]
  | string s => [.token (.text s.toList)]
  | array vs => .token .leftBracket :: values vs
  | object ms => .token .leftBrace :: members ms

def values : List Json → List Lexeme
  | [] => [.token .rightBracket]
  | v :: vs => v.lexemes ++ moreValues vs

def moreValues : List Json → List Lexeme
  | [] => [.token .rightBracket]
  | v :: vs => .token .comma :: (v.lexemes ++ moreValues vs)

def members : List (String × Json) → List Lexeme
  | [] => [.token .rightBrace]
  | (key, v) :: ms => .token (.text key.toList) :: .token .colon :: (v.lexemes ++ moreMembers ms)

def moreMembers : List (String × Json) → List Lexeme
  | [] => [.token .rightBrace]
  | (key, v) :: ms =>
    .token .comma :: .token (.text key.toList) :: .token .colon :: (v.lexemes ++ moreMembers ms)

end

/-- Is the text a written form of the value? -/
def Writes (v : Json) (text : String) : Prop := Lexeme.WritesRow v.lexemes text.toList

theorem writes_of_row {v : Json} {text : String} {cs : List Char}
    (row : Lexeme.WritesRow v.lexemes cs) (chars : text = String.ofList cs) : v.Writes text := by
  unfold Writes
  rwa [chars, String.toList_ofList]

/-! ## One value at most -/

def first : Json → Lexeme
  | null => .null
  | bool b => .token (.truth b)
  | number literal => .number literal
  | string s => .token (.text s.toList)
  | array _ => .token .leftBracket
  | object _ => .token .leftBrace

theorem exists_lexemes_eq (v : Json) : ∃ more, v.lexemes = v.first :: more := by
  cases v <;> exact ⟨_, by rw [lexemes, first]⟩

theorem append_ne_rightBracket (v : Json) (r r' : List Lexeme) :
    v.lexemes ++ r ≠ .token .rightBracket :: r' := by
  obtain ⟨more, h⟩ := v.exists_lexemes_eq
  rw [h]
  cases v <;> simp [first]

mutual

/-- Of rows that go on in any way, the values at the front can be told. -/
theorem append_inj : ∀ {v v' : Json} {r r' : List Lexeme},
    v.lexemes ++ r = v'.lexemes ++ r' → v = v' ∧ r = r'
  | null, v', _, _, same => by
      cases v' with
      | null => simpa [lexemes] using same
      | _ => simp [lexemes] at same
  | bool _, v', _, _, same => by
      cases v' with
      | bool _ => simpa [lexemes] using same
      | _ => simp [lexemes] at same
  | number _, v', _, _, same => by
      cases v' with
      | number _ => simpa [lexemes] using same
      | _ => simp [lexemes] at same
  | string _, v', _, _, same => by
      cases v' with
      | string _ => simpa [lexemes, String.toList_inj] using same
      | _ => simp [lexemes] at same
  | array vs, v', _, _, same => by
      cases v' with
      | array vs' =>
          obtain ⟨rfl, rfl⟩ := values_append_inj (List.cons.inj same).2
          exact ⟨rfl, rfl⟩
      | _ => simp [lexemes] at same
  | object ms, v', _, _, same => by
      cases v' with
      | object ms' =>
          obtain ⟨rfl, rfl⟩ := members_append_inj (List.cons.inj same).2
          exact ⟨rfl, rfl⟩
      | _ => simp [lexemes] at same

theorem values_append_inj : ∀ {vs vs' : List Json} {r r' : List Lexeme},
    values vs ++ r = values vs' ++ r' → vs = vs' ∧ r = r'
  | [], [], _, _, same => by simpa [values] using same
  | [], v' :: _, _, _, same => by
      rw [values, values, List.append_assoc] at same
      exact absurd same.symm (v'.append_ne_rightBracket _ _)
  | v :: _, [], _, _, same => by
      rw [values, values, List.append_assoc] at same
      exact absurd same (v.append_ne_rightBracket _ _)
  | v :: vs, v' :: vs', r, r', same => by
      rw [values, values, List.append_assoc, List.append_assoc] at same
      obtain ⟨rfl, others⟩ := append_inj same
      obtain ⟨rfl, rfl⟩ := moreValues_append_inj others
      exact ⟨rfl, rfl⟩

theorem moreValues_append_inj : ∀ {vs vs' : List Json} {r r' : List Lexeme},
    moreValues vs ++ r = moreValues vs' ++ r' → vs = vs' ∧ r = r'
  | [], [], _, _, same => by simpa [moreValues] using same
  | [], _ :: _, _, _, same => by simp [moreValues] at same
  | _ :: _, [], _, _, same => by simp [moreValues] at same
  | v :: vs, v' :: vs', r, r', same => by
      simp only [moreValues, List.cons_append, List.append_assoc, List.cons.injEq, true_and] at same
      obtain ⟨rfl, others⟩ := append_inj same
      obtain ⟨rfl, rfl⟩ := moreValues_append_inj others
      exact ⟨rfl, rfl⟩

theorem members_append_inj : ∀ {ms ms' : List (String × Json)} {r r' : List Lexeme},
    members ms ++ r = members ms' ++ r' → ms = ms' ∧ r = r'
  | [], [], _, _, same => by simpa [members] using same
  | [], _ :: _, _, _, same => by simp [members] at same
  | _ :: _, [], _, _, same => by simp [members] at same
  | (key, v) :: ms, (key', v') :: ms', r, r', same => by
      simp only [members, List.cons_append, List.append_assoc, List.cons.injEq, true_and,
        Lexeme.token.injEq, Token.text.injEq, String.toList_inj] at same
      obtain ⟨rfl, same⟩ := same
      obtain ⟨rfl, others⟩ := append_inj same
      obtain ⟨rfl, rfl⟩ := moreMembers_append_inj others
      exact ⟨rfl, rfl⟩

theorem moreMembers_append_inj : ∀ {ms ms' : List (String × Json)} {r r' : List Lexeme},
    moreMembers ms ++ r = moreMembers ms' ++ r' → ms = ms' ∧ r = r'
  | [], [], _, _, same => by simpa [moreMembers] using same
  | [], _ :: _, _, _, same => by simp [moreMembers] at same
  | _ :: _, [], _, _, same => by simp [moreMembers] at same
  | (key, v) :: ms, (key', v') :: ms', r, r', same => by
      simp only [moreMembers, List.cons_append, List.append_assoc, List.cons.injEq, true_and,
        Lexeme.token.injEq, Token.text.injEq, String.toList_inj] at same
      obtain ⟨rfl, same⟩ := same
      obtain ⟨rfl, others⟩ := append_inj same
      obtain ⟨rfl, rfl⟩ := moreMembers_append_inj others
      exact ⟨rfl, rfl⟩

end

theorem lexemes_injective {v v' : Json} (same : v.lexemes = v'.lexemes) : v = v' :=
  (append_inj (congrArg (· ++ []) same)).1

/-! ## Values that consist of tokens -/

/-- Do all lexemes of the value occur in options texts? -/
def Plain (v : Json) : Prop := ∀ l ∈ v.lexemes, l.token?.isSome = true

theorem plain_moreValues {vs : List Json} (plain : ∀ v ∈ vs, v.Plain) :
    ∀ l ∈ moreValues vs, l.token?.isSome = true := by
  induction vs with
  | nil => simp [moreValues, Lexeme.token?]
  | cons v vs ih =>
      obtain ⟨first, others⟩ := List.forall_mem_cons.mp plain
      rw [moreValues, List.forall_mem_cons, List.forall_mem_append]
      exact ⟨rfl, first, ih others⟩

theorem plain_array {vs : List Json} (plain : ∀ v ∈ vs, v.Plain) : (array vs).Plain := by
  unfold Plain
  rw [lexemes, List.forall_mem_cons]
  cases vs with
  | nil => simp [values, Lexeme.token?]
  | cons v vs =>
      obtain ⟨first, others⟩ := List.forall_mem_cons.mp plain
      rw [values, List.forall_mem_append]
      exact ⟨rfl, first, plain_moreValues others⟩

theorem plain_moreMembers {ms : List (String × Json)} (plain : ∀ m ∈ ms, m.2.Plain) :
    ∀ l ∈ moreMembers ms, l.token?.isSome = true := by
  induction ms with
  | nil => simp [moreMembers, Lexeme.token?]
  | cons m ms ih =>
      obtain ⟨first, others⟩ := List.forall_mem_cons.mp plain
      rw [moreMembers]
      simp only [List.forall_mem_cons, List.forall_mem_append]
      exact ⟨rfl, rfl, rfl, first, ih others⟩

theorem plain_object {ms : List (String × Json)} (plain : ∀ m ∈ ms, m.2.Plain) :
    (object ms).Plain := by
  unfold Plain
  rw [lexemes, List.forall_mem_cons]
  cases ms with
  | nil => simp [members, Lexeme.token?]
  | cons m ms =>
      obtain ⟨first, others⟩ := List.forall_mem_cons.mp plain
      rw [members]
      simp only [List.forall_mem_cons, List.forall_mem_append]
      exact ⟨rfl, rfl, rfl, first, plain_moreMembers others⟩

end Json

/-! ## Documents as values -/

def Setting.json : Setting → Json
  | flag b => .bool b
  | names texts => .array (texts.map .string)

def Document.json : Document → Json
  | record entries => .object (entries.map fun e => (e.1, e.2.json))
  | row settings => .array (settings.map Setting.json)

theorem Setting.plain_json (s : Setting) : s.json.Plain := by
  cases s with
  | flag b => simp [Setting.json, Json.Plain, Json.lexemes, Lexeme.token?]
  | names texts =>
      refine Json.plain_array fun v hv => ?_
      obtain ⟨text, -, rfl⟩ := List.mem_map.mp hv
      simp [Json.Plain, Json.lexemes, Lexeme.token?]

theorem Document.plain_json (d : Document) : d.json.Plain := by
  cases d with
  | record es =>
      refine Json.plain_object fun m hm => ?_
      obtain ⟨e, -, rfl⟩ := List.mem_map.mp hm
      exact e.2.plain_json
  | row ss =>
      refine Json.plain_array fun v hv => ?_
      obtain ⟨s, -, rfl⟩ := List.mem_map.mp hv
      exact s.plain_json

namespace Document

open Lexeme (token)

theorem map_token_inj {ts ts' : List Token} (same : ts.map token = ts'.map token) : ts = ts' :=
  (List.map_inj_right fun _ _ => Lexeme.token.inj).mp same

theorem eq_cons_of_map_token {ts : List Token} {t : Token} {ls : List Lexeme}
    (row : ts.map token = token t :: ls) : ∃ ts', ts = t :: ts' ∧ ts'.map token = ls := by
  obtain ⟨_, ts', rfl, same, others⟩ := List.map_eq_cons_iff.mp row
  cases same
  exact ⟨ts', rfl, others⟩

/-! ### Lists of strings -/

theorem readNamesTail_eq_some_iff {ts after : List Token} {names : List String} :
    readNamesTail ts = some (names, after) ↔
      ts.map token = Json.moreValues (names.map .string) ++ after.map token := by
  constructor
  · intro read
    fun_induction readNamesTail ts generalizing names with
    | case1 rest =>
        cases read
        rfl
    | case2 cs rest ih =>
        obtain ⟨⟨names, _⟩, others, same⟩ := Option.map_eq_some_iff.mp read
        cases same
        simp [Json.moreValues, Json.lexemes, ih others]
    | case3 => cases read
  · intro row
    induction names generalizing ts with
    | nil =>
        obtain ⟨rest, rfl, others⟩ := eq_cons_of_map_token row
        rw [map_token_inj others]
        rfl
    | cons name names ih =>
        obtain ⟨_, rfl, row₁⟩ := eq_cons_of_map_token row
        obtain ⟨_, rfl, row₂⟩ := eq_cons_of_map_token row₁
        rw [readNamesTail, ih row₂]
        simp

theorem readNames_eq_some_iff {ts after : List Token} {names : List String} :
    readNames ts = some (names, after) ↔
      ts.map token = Json.values (names.map .string) ++ after.map token := by
  constructor
  · intro read
    unfold readNames at read
    split at read
    · cases read
      rfl
    · obtain ⟨⟨names, _⟩, others, same⟩ := Option.map_eq_some_iff.mp read
      cases same
      simp [Json.values, Json.lexemes, readNamesTail_eq_some_iff.mp others]
    · cases read
  · intro row
    cases names with
    | nil =>
        obtain ⟨rest, rfl, others⟩ := eq_cons_of_map_token row
        rw [map_token_inj others]
        rfl
    | cons name names =>
        obtain ⟨rest, rfl, others⟩ := eq_cons_of_map_token row
        rw [readNames, readNamesTail_eq_some_iff.mpr others]
        simp

/-! ### Settings -/

theorem readSetting_eq_some_iff {ts after : List Token} {s : Setting} :
    readSetting ts = some (s, after) ↔ ts.map token = s.json.lexemes ++ after.map token := by
  constructor
  · intro read
    unfold readSetting at read
    split at read
    · cases read
      rfl
    · obtain ⟨⟨names, _⟩, others, same⟩ := Option.map_eq_some_iff.mp read
      cases same
      simp [Setting.json, Json.lexemes, readNames_eq_some_iff.mp others]
    · cases read
  · intro row
    cases s with
    | flag b =>
        obtain ⟨rest, rfl, others⟩ := eq_cons_of_map_token row
        rw [map_token_inj others]
        rfl
    | names texts =>
        obtain ⟨rest, rfl, others⟩ := eq_cons_of_map_token row
        rw [readSetting, readNames_eq_some_iff.mpr others]
        rfl

theorem readEntriesTail_of_readSetting {key : List Char} {rest after : List Token} {s : Setting}
    (found : readSetting rest = some (s, after)) :
    readEntriesTail (.comma :: .text key :: .colon :: rest) =
      (readEntriesTail after).map ((String.ofList key, s) :: ·) := by
  rw [readEntriesTail]
  split
  · rename_i found'
    rw [found] at found'
    cases found'
    rfl
  · rename_i missing
    rw [found] at missing
    cases missing

theorem readRowTail_of_readSetting {rest after : List Token} {s : Setting}
    (found : readSetting rest = some (s, after)) :
    readRowTail (.comma :: rest) = (readRowTail after).map (s :: ·) := by
  rw [readRowTail]
  split
  · rename_i found'
    rw [found] at found'
    cases found'
    rfl
  · rename_i missing
    rw [found] at missing
    cases missing

theorem exists_readSetting {ts : List Token} {s : Setting} {ls : List Lexeme}
    (row : ts.map token = s.json.lexemes ++ ls) :
    ∃ after, readSetting ts = some (s, after) ∧ after.map token = ls := by
  obtain ⟨front, after, rfl, front_eq, rfl⟩ := List.map_eq_append_iff.mp row
  refine ⟨after, ?_, rfl⟩
  rw [readSetting_eq_some_iff, List.map_append, front_eq]

/-! ### Documents -/

theorem readEntriesTail_eq_some_iff {ts : List Token} {es : List (String × Setting)} :
    readEntriesTail ts = some es ↔
      ts.map token = Json.moreMembers (es.map fun e => (e.1, e.2.json)) := by
  constructor
  · intro read
    fun_induction readEntriesTail ts generalizing es with
    | case1 =>
        cases read
        rfl
    | case2 key rest s after found _ ih =>
        obtain ⟨es, others, rfl⟩ := Option.map_eq_some_iff.mp read
        simp [Json.moreMembers, readSetting_eq_some_iff.mp found, ih others]
    | case3 => cases read
    | case4 => cases read
  · intro row
    induction es generalizing ts with
    | nil =>
        obtain ⟨_, rfl, row₁⟩ := eq_cons_of_map_token row
        rw [List.map_eq_nil_iff.mp row₁, readEntriesTail]
    | cons e es ih =>
        obtain ⟨_, rfl, row₁⟩ := eq_cons_of_map_token row
        obtain ⟨_, rfl, row₂⟩ := eq_cons_of_map_token row₁
        obtain ⟨_, rfl, row₃⟩ := eq_cons_of_map_token row₂
        obtain ⟨after, found, others⟩ := exists_readSetting row₃
        rw [readEntriesTail_of_readSetting found, ih others]
        simp

theorem readRowTail_eq_some_iff {ts : List Token} {ss : List Setting} :
    readRowTail ts = some ss ↔ ts.map token = Json.moreValues (ss.map Setting.json) := by
  constructor
  · intro read
    fun_induction readRowTail ts generalizing ss with
    | case1 =>
        cases read
        rfl
    | case2 rest s after found _ ih =>
        obtain ⟨ss, others, rfl⟩ := Option.map_eq_some_iff.mp read
        simp [Json.moreValues, readSetting_eq_some_iff.mp found, ih others]
    | case3 => cases read
    | case4 => cases read
  · intro row
    induction ss generalizing ts with
    | nil =>
        obtain ⟨_, rfl, row₁⟩ := eq_cons_of_map_token row
        rw [List.map_eq_nil_iff.mp row₁, readRowTail]
    | cons s ss ih =>
        obtain ⟨_, rfl, row₁⟩ := eq_cons_of_map_token row
        obtain ⟨after, found, others⟩ := exists_readSetting row₁
        rw [readRowTail_of_readSetting found, ih others]
        rfl

theorem ofTokens?_eq_some_iff {ts : List Token} {d : Document} :
    ofTokens? ts = some d ↔ ts.map token = d.json.lexemes := by
  constructor
  · intro read
    unfold ofTokens? at read
    split at read
    · cases read
      rfl
    · obtain ⟨es, found, rfl⟩ := Option.map_eq_some_iff.mp read
      have row := readEntriesTail_eq_some_iff.mp found
      cases es with
      | nil => simp [Json.moreMembers] at row
      | cons e es => exact congrArg (token .leftBrace :: ·) (List.cons.inj row).2
    · cases read
      rfl
    · obtain ⟨ss, found, rfl⟩ := Option.map_eq_some_iff.mp read
      have row := readRowTail_eq_some_iff.mp found
      cases ss with
      | nil => simp [Json.moreValues] at row
      | cons s ss => exact congrArg (token .leftBracket :: ·) (List.cons.inj row).2
    · cases read
  · intro row
    cases d with
    | record es =>
        obtain ⟨rest, rfl, row₁⟩ := eq_cons_of_map_token row
        cases es with
        | nil =>
            obtain ⟨_, rfl, row₂⟩ := eq_cons_of_map_token row₁
            rw [List.map_eq_nil_iff.mp row₂, ofTokens?]
        | cons e es =>
            have found : readEntriesTail (.comma :: rest) = some (e :: es) :=
              readEntriesTail_eq_some_iff.mpr (congrArg (token .comma :: ·) row₁)
            obtain ⟨_, rfl, -⟩ := eq_cons_of_map_token row₁
            rw [ofTokens?, found, Option.map_some]
            exact fun same => nomatch same
    | row ss =>
        obtain ⟨rest, rfl, row₁⟩ := eq_cons_of_map_token row
        cases ss with
        | nil =>
            obtain ⟨_, rfl, row₂⟩ := eq_cons_of_map_token row₁
            rw [List.map_eq_nil_iff.mp row₂, ofTokens?]
        | cons s ss =>
            have found : readRowTail (.comma :: rest) = some (s :: ss) :=
              readRowTail_eq_some_iff.mpr (congrArg (token .comma :: ·) row₁)
            rw [ofTokens?, found, Option.map_some]
            rintro rfl
            exact s.json.append_ne_rightBracket _ _ row₁.symm

end Document

end ObjectInit.Options
