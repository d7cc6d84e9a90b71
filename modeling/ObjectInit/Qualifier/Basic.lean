import ObjectInit.Identifier

/-! # Initialization qualifiers

A qualifier tells how much of an object has been initialized. Two of the four carry a frame: the
class up to which, itself included, all fields have been assigned.
-/

namespace ObjectInit

/-- How much of an object has been initialized. -/
inductive Qualifier
  /-- Nothing there to initialize: the qualifier of the null reference. -/
  | bottom
  /-- Under construction: assigned up to the frame, and not known beyond. -/
  | under (frame : Frame)
  /-- Every field of the object is assigned. -/
  | initialized
  /-- Assigned up to the frame; the object may be under construction or not. -/
  | unknown (frame : Frame)
deriving DecidableEq

inductive QualifierKind
  | bottom
  | under
  | initialized
  | unknown
deriving DecidableEq

namespace Qualifier

def kind : Qualifier → QualifierKind
  | bottom => .bottom
  | under _ => .under
  | initialized => .initialized
  | unknown _ => .unknown

def frame? : Qualifier → Option Frame
  | under f | unknown f => some f
  | bottom | initialized => none

def isUnder (q : Qualifier) : Bool := q.kind = .under

def isUnknown (q : Qualifier) : Bool := q.kind = .unknown

def isInitialized (q : Qualifier) : Bool := q = .initialized

/-- May some fields of the object be unassigned? -/
def isPartial (q : Qualifier) : Bool := q.frame?.isSome

def describe : Qualifier → String
  | bottom => "Bottom"
  | under f => "UnderInitialization(" ++ f.describe ++ ")"
  | initialized => "Initialized"
  | unknown f => "UnknownInitialization(" ++ f.describe ++ ")"

end Qualifier

end ObjectInit
