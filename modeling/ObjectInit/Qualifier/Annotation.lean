import ObjectInit.Hierarchy.Basic
import ObjectInit.NameTable
import ObjectInit.Qualifier.Basic

/-! # Qualifiers as annotations

A qualifier is shown to readers as the annotation that declares it, with its class by name.
-/

namespace ObjectInit

/-- The name of a class; a frame without an entry is shown by its number. -/
def Hierarchy.frameText (h : Hierarchy) (names : NameTable) (f : Frame) : String :=
  match h.nameOf? f with
  | some n => names.resolve n
  | none => f.label

def Qualifier.annotation (h : Hierarchy) (names : NameTable) : Qualifier → String
  | bottom => "@FBCBottom"
  | initialized => "@Initialized"
  | under f => "@UnderInitialization(" ++ h.frameText names f ++ ")"
  | unknown f => "@UnknownInitialization(" ++ h.frameText names f ++ ")"

end ObjectInit
