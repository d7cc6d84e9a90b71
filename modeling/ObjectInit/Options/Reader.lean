import ObjectInit.Options.Basic
import ObjectInit.Options.Document

/-! # Options from a text

A record may name each setting once, in any order, and no other; a row gives the settings in their
fixed order and may stop early. The prefixes are judged once everything has been read.
-/

namespace ObjectInit.Options

structure Draft where
  assumeInitialized : Option Bool := none
  checkPrimitives : Option Bool := none
  suppressionPrefixes : Option (List String) := none
deriving DecidableEq

namespace Draft

/-- Takes a named setting, which must be known, of the right kind, and not given before. -/
def take (d : Draft) (key : String) (s : Setting) : Option Draft :=
  match s with
  | .flag b =>
    if key = "assumeInitialized" ∧ d.assumeInitialized.isNone then
      some { d with assumeInitialized := some b }
    else if key = "checkPrimitives" ∧ d.checkPrimitives.isNone then
      some { d with checkPrimitives := some b }
    else none
  | .names names =>
    if key = "suppressWarningsPrefixes" ∧ d.suppressionPrefixes.isNone then
      some { d with suppressionPrefixes := some names }
    else none

def takeAll (d : Draft) : List (String × Setting) → Option Draft
  | [] => some d
  | (key, s) :: rest => (d.take key s).bind fun d' => d'.takeAll rest

/-- The draft of settings in their fixed order. -/
def ofRow? : List Setting → Option Draft
  | [] => some {}
  | [.flag a] => some ⟨some a, none, none⟩
  | [.flag a, .flag c] => some ⟨some a, some c, none⟩
  | [.flag a, .flag c, .names p] => some ⟨some a, some c, some p⟩
  | _ => none

def ofDocument? : Document → Option Draft
  | .record entries => takeAll {} entries
  | .row values => ofRow? values

/-- The options, with defaults for what is not given. -/
def toOptions (d : Draft) : Options where
  assumeInitialized := d.assumeInitialized.getD false
  checkPrimitives := d.checkPrimitives.getD false
  suppressionPrefixes := d.suppressionPrefixes.getD ["initialization", "fbc"]

end Draft

/-- The options that a text describes, before their prefixes are judged. -/
def decode? (text : String) : Option Options :=
  ((Token.tokens? text.toList).bind Document.ofTokens?).bind Draft.ofDocument?
    |>.map Draft.toOptions

def ofJson (text : String) : Except OptionsError Options :=
  match decode? text with
  | none => .error .malformed
  | some o =>
    match o.fault? with
    | some fault => .error fault
    | none => .ok o

end ObjectInit.Options
