import ObjectInit.Identifier
import ObjectInit.Text.Replace

/-! # Messages and diagnostics

Arguments go into a template one after the other, each in place of its own number in braces; an
argument that holds the number of a later one is therefore filled in too.
-/

namespace ObjectInit

inductive Severity
  | warning
  | error
  | message
deriving DecidableEq

structure Template where
  key : String
  severity : Severity
  text : String
deriving DecidableEq

namespace Template

def fieldsUninitialized : String := "initialization.fields.uninitialized"

def fieldUninitialized : String := "initialization.field.uninitialized"

def staticFieldUninitialized : String := "initialization.static.field.uninitialized"

def table : List Template := [
  ⟨fieldsUninitialized, .error, "the constructor does not initialize fields: \x7b0\x7d"⟩,
  ⟨fieldUninitialized, .error, "the default constructor does not initialize field \x7b0\x7d"⟩,
  ⟨staticFieldUninitialized, .error, "static field \x7b0\x7d is not initialized"⟩]

def find? (key : String) : Option Template := table.find? (·.key = key)

/-- The hole for argument number `i`: the number in braces. -/
def hole (i : Nat) : List Char := '\x7b' :: Nat.toDigits 10 i ++ ['\x7d']

/-- Fills the holes from number `i` on, each argument into the text that the ones before it left. -/
def fillFrom (i : Nat) (text : List Char) : List String → List Char
  | [] => text
  | arg :: rest => fillFrom (i + 1) (Text.replaceAll (hole i) arg.toList text) rest

def fill (text : String) (args : List String) : String :=
  String.ofList (fillFrom 0 text.toList args)

end Template

structure Diagnostic where
  severity : Severity
  key : String
  location : Location
  text : String
deriving DecidableEq

/-- The diagnostic for a key. A key without a template still gives a readable line: the key and
the arguments. -/
def Diagnostic.ofKey (location : Location) (key : String) (args : List String) : Diagnostic :=
  match Template.find? key with
  | some t => ⟨t.severity, key, location, Template.fill t.text args⟩
  | none => ⟨.error, key, location, key ++ ": " ++ ", ".intercalate args⟩

end ObjectInit
