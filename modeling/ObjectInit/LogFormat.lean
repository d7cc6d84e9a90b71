import ObjectInit.Text.Blank

/-! # Format of the log

The format is chosen by a word; a log is kept only when somebody asked for it.
-/

namespace ObjectInit

inductive LogFormat
  | text
  | tree
  | json
deriving DecidableEq

namespace LogFormat

/-- The format that a word asks for, white space around it and the case of ASCII letters aside.
Every other word asks for plain text. -/
def ofWord (word : String) : LogFormat :=
  let plain := (Text.trim word.toList).map Char.toLower
  if plain = "tree".toList then .tree
  else if plain = "json".toList then .json
  else .text

/-- A log is kept if either of the two filters is given and none is kept already. -/
def starts (filter fallback : Option String) (alreadyKept : Bool) : Bool :=
  (filter.isSome || fallback.isSome) && !alreadyKept

end LogFormat

end ObjectInit
