import ObjectInit.Options.Token

/-! # The shape of an options text

A text is a record of named settings or a row of settings in a fixed order; a setting is a truth
value or a list of strings. Settings are separated by single commas.
-/

namespace ObjectInit.Options

inductive Setting
  | flag (value : Bool)
  | names (values : List String)
deriving DecidableEq

/-- What an options text says before its settings are looked at. -/
inductive Document
  | record (entries : List (String × Setting))
  | row (values : List Setting)
deriving DecidableEq

namespace Document

/-- Reads the strings of a list after its first one, with what follows the list. -/
def readNamesTail : List Token → Option (List String × List Token)
  | .rightBracket :: rest => some ([], rest)
  | .comma :: .text cs :: rest =>
    (readNamesTail rest).map fun (names, after) => (String.ofList cs :: names, after)
  | _ => none

def readNames : List Token → Option (List String × List Token)
  | .rightBracket :: rest => some ([], rest)
  | .text cs :: rest =>
    (readNamesTail rest).map fun (names, after) => (String.ofList cs :: names, after)
  | _ => none

def readSetting : List Token → Option (Setting × List Token)
  | .truth b :: rest => some (.flag b, rest)
  | .leftBracket :: rest => (readNames rest).map fun (names, after) => (.names names, after)
  | _ => none

theorem length_lt_of_readNamesTail {ts : List Token} {names : List String} {after : List Token}
    (h : readNamesTail ts = some (names, after)) : after.length < ts.length := by
  fun_induction readNamesTail ts generalizing names after with
  | case1 rest =>
    simp only [Option.some.injEq, Prod.mk.injEq] at h
    simp [← h.2]
  | case2 cs rest ih =>
    simp only [Option.map_eq_some_iff, Prod.exists, Prod.mk.injEq] at h
    obtain ⟨names', after', hr, _, rfl⟩ := h
    have := ih hr
    simp only [List.length_cons]
    omega
  | case3 => cases h

theorem length_lt_of_readSetting {ts : List Token} {s : Setting} {after : List Token}
    (h : readSetting ts = some (s, after)) : after.length < ts.length := by
  match ts with
  | .truth b :: rest =>
    simp only [readSetting, Option.some.injEq, Prod.mk.injEq] at h
    simp [← h.2]
  | .leftBracket :: .rightBracket :: rest =>
    simp only [readSetting, readNames, Option.map_some, Option.some.injEq, Prod.mk.injEq] at h
    simp only [← h.2, List.length_cons]
    omega
  | .leftBracket :: .text cs :: rest =>
    simp only [readSetting, readNames, Option.map_map, Option.map_eq_some_iff, Prod.exists,
      Function.comp_apply, Prod.mk.injEq] at h
    obtain ⟨names, after', hr, _, rfl⟩ := h
    have := length_lt_of_readNamesTail hr
    simp only [List.length_cons]
    omega

/-- Reads the entries of a record after its first one, up to the closing brace at the end. -/
def readEntriesTail : List Token → Option (List (String × Setting))
  | [.rightBrace] => some []
  | .comma :: .text key :: .colon :: rest =>
    match h : readSetting rest with
    | some (s, after) =>
      have := length_lt_of_readSetting h
      (readEntriesTail after).map ((String.ofList key, s) :: ·)
    | none => none
  | _ => none
termination_by ts => ts.length
decreasing_by all_goals simp only [List.length_cons]; omega

def readRowTail : List Token → Option (List Setting)
  | [.rightBracket] => some []
  | .comma :: rest =>
    match h : readSetting rest with
    | some (s, after) =>
      have := length_lt_of_readSetting h
      (readRowTail after).map (s :: ·)
    | none => none
  | _ => none
termination_by ts => ts.length
decreasing_by all_goals simp only [List.length_cons]; omega

/-- What a row of tokens says, if it is a record or a row of settings and nothing else. -/
def ofTokens? : List Token → Option Document
  | [.leftBrace, .rightBrace] => some (.record [])
  | .leftBrace :: rest => (readEntriesTail (.comma :: rest)).map .record
  | [.leftBracket, .rightBracket] => some (.row [])
  | .leftBracket :: rest => (readRowTail (.comma :: rest)).map .row
  | _ => none

end Document

end ObjectInit.Options
