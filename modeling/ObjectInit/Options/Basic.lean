import ObjectInit.Text.Quoted

/-! # Options

The switches of the checker. A prefix that a suppression may start with must have some text and no
colon, since a colon ends it.
-/

namespace ObjectInit

structure Options where
  /-- Take every value as initialized. -/
  assumeInitialized : Bool := false
  /-- Report primitive fields too; otherwise they count as assigned. -/
  checkPrimitives : Bool := false
  /-- Names that a suppression may put before the key. -/
  suppressionPrefixes : List String := ["initialization", "fbc"]
deriving DecidableEq

instance : Inhabited Options := ⟨{}⟩

inductive OptionsError
  /-- The text is not a description of options. -/
  | malformed
  | emptyPrefix
  | prefixContainsColon (text : String)
deriving DecidableEq

namespace OptionsError

def message : OptionsError → String
  | malformed => "invalid checker options"
  | emptyPrefix => "suppression prefix must not be empty"
  | prefixContainsColon p => "suppression prefix " ++ Text.quote p ++ " must not contain ':'"

end OptionsError

namespace Options

def prefixFault? (p : String) : Option OptionsError :=
  if p = "" then some .emptyPrefix
  else if ':' ∈ p.toList then some (.prefixContainsColon p)
  else none

theorem prefixFault?_eq_none_iff {p : String} :
    prefixFault? p = none ↔ p ≠ "" ∧ ':' ∉ p.toList := by
  unfold prefixFault?
  by_cases empty : p = ""
  · simp [empty]
  · by_cases colon : ':' ∈ p.toList <;> simp [empty, colon]

/-- The fault of the first bad prefix. -/
def fault? (o : Options) : Option OptionsError := o.suppressionPrefixes.findSome? prefixFault?

theorem fault?_eq_none_iff {o : Options} :
    o.fault? = none ↔ ∀ p ∈ o.suppressionPrefixes, p ≠ "" ∧ ':' ∉ p.toList := by
  unfold fault?
  rw [List.findSome?_eq_none_iff]
  exact forall₂_congr fun _ _ => prefixFault?_eq_none_iff

end Options

end ObjectInit
