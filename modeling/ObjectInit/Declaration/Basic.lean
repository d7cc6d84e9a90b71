import ObjectInit.Qualifier.Basic

/-! # Declared facts

What a program declares about its classes, fields and members, and where an inner class is created
inside its outer one.
-/

namespace ObjectInit

/-- A kind of member that contains code. -/
inductive MemberKind
  | constructor
  | instanceInitializer
  | staticInitializer
  | method
  | staticMethod
deriving DecidableEq

namespace MemberKind

/-- Does such a member run while something is being built? -/
def isInitialization : MemberKind → Bool
  | constructor | instanceInitializer | staticInitializer => true
  | method | staticMethod => false

/-- Does such a member run without a receiver? -/
def isStatic : MemberKind → Bool
  | staticInitializer | staticMethod => true
  | constructor | instanceInitializer | method => false

end MemberKind

structure FieldDecl where
  id : FieldId
  location : Location
  isStatic : Bool := false
  isFinal : Bool := false
  isPrimitive : Bool := false
  /-- The initialization qualifier of the field's type. -/
  declaredInitialization : Qualifier := .initialized
  /-- The field may refer to an object under construction even when its owner is finished. -/
  notOnlyInitialized : Bool := false
  /-- The qualifier declared for the field in the system at hand is an invariant. -/
  declaredInvariant : Bool := true
  /-- The declared qualifier already holds of the default value. -/
  holdsForDefault : Bool := false
  hasInitializer : Bool := false
  /-- The kind of receiver for which the field is not looked at. -/
  unusedWhen : Option QualifierKind := none
deriving DecidableEq

namespace FieldDecl

/-- Is the field left out of account for a receiver? Without a receiver it never is. -/
def isUnusedFor (f : FieldDecl) (receiver : Option Qualifier) : Bool :=
  match f.unusedWhen, receiver with
  | some kind, some q => q.kind = kind
  | _, _ => false

end FieldDecl

structure MemberDecl where
  id : MemberId
  owner : Frame
  kind : MemberKind
  location : Location
  /-- The qualifier written for the receiver. -/
  declaredReceiver : Option Qualifier
deriving DecidableEq

structure EnclosingSite where
  location : Location
  /-- Does the inner object hold a reference to the outer one? -/
  capturesOuter : Bool
deriving DecidableEq

/-- What is declared about a class. Fields and members are in order of declaration. -/
structure ClassDecl where
  frame : Frame
  name : Name
  location : Location
  isFinal : Bool
  enclosing : Option EnclosingSite
  fields : List FieldId
  members : List MemberId
deriving DecidableEq

inductive DeclarationError
  | duplicateClass (frame : Frame)
  | unknownClass (frame : Frame)
  | duplicateField (field : FieldId)
  | unknownMember (member : MemberId)
  | locationAlreadyRegistered (location : Location) (existing : MemberId)
  | enclosingSiteOutsideMember (location : Location) (inner : Frame)
deriving DecidableEq

namespace DeclarationError

def message : DeclarationError → String
  | duplicateClass c => "class " ++ c.label ++ " is declared twice"
  | unknownClass c => "class " ++ c.label ++ " has not been declared"
  | duplicateField f => "field " ++ f.describe ++ " is declared twice"
  | unknownMember m => "member " ++ m.describe ++ " has not been declared"
  | locationAlreadyRegistered l m =>
    "location " ++ l.describe ++ " already belongs to member " ++ m.describe
  | enclosingSiteOutsideMember l c =>
    "enclosing site " ++ l.describe ++ " of class " ++ c.label ++ " is not inside any member"

end DeclarationError

end ObjectInit
