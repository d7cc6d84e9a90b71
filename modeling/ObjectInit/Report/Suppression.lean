import ObjectInit.Data.FiniteMap
import ObjectInit.Identifier
import ObjectInit.Text.Replace
import ObjectInit.Text.Split

/-! # Suppressions

A field may carry texts that silence messages about it: `all`, the name of the checker, the key of a
message, or both with a colon between. A key may also be written without its parts `.invalid`.
-/

namespace ObjectInit

abbrev Suppression := FieldId → String → Bool

def Suppression.none : Suppression := fun _ _ => false

structure SuppressionTable where
  prefixes : List String
  annotations : FiniteMap FieldId (List String)
deriving DecidableEq

namespace SuppressionTable

def ofPrefixes (prefixes : List String) : SuppressionTable := ⟨prefixes, ∅⟩

def annotate (t : SuppressionTable) (f : FieldId) (text : String) : SuppressionTable :=
  { t with annotations := t.annotations.insert f ((t.annotations.get? f).getD [] ++ [text]) }

/-- The key without its parts `.invalid`. -/
def shortKey (key : String) : String :=
  String.ofList (Text.replaceAll ".invalid".toList [] key.toList)

/-- Does a text write a key? -/
def writesKey (text key : String) : Bool := text = key || text = shortKey key

def covers (t : SuppressionTable) (text key : String) : Bool :=
  text = "all" || t.prefixes.contains text ||
    match Text.splitAtFirst ':' text.toList with
    | some (before, after) =>
      t.prefixes.contains (String.ofList before) && writesKey (String.ofList after) key
    | none => writesKey text key

def suppresses (t : SuppressionTable) : Suppression := fun f key =>
  ((t.annotations.get? f).getD []).any fun text => t.covers text key

end SuppressionTable

end ObjectInit
