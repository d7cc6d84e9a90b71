import ObjectInit.Qualifier.System
import ObjectInit.SelfQualifier

/-! # Reading fields of unfinished objects

A field read through an object under construction has the top qualifier of the type system that
asks, unless the object is initialized up to the class that declares the field, or the field is
known to be assigned.
-/

namespace ObjectInit

universe u v

inductive ValueKind
  | primitive
  | reference
  /-- A reference to a method. -/
  | executable
deriving DecidableEq

structure FieldAccess where
  field : FieldId
  /-- The qualifier of what the field is read through; `none` for the current object, whose
  qualifier depends on the place. -/
  receiver : Option Qualifier
  kind : ValueKind := .reference
  /-- Is the field read through the current object? -/
  isSelfAccess : Bool
  /-- Is the type asked for in order to assign to the field? -/
  isTarget : Bool := false
deriving DecidableEq

namespace FieldAccess

def ofSelf (f : FieldId) : FieldAccess := { field := f, receiver := none, isSelfAccess := true }

def through (f : FieldId) (q : Qualifier) : FieldAccess :=
  { field := f, receiver := some q, isSelfAccess := false }

end FieldAccess

namespace Analysis

variable {V : Type u} {Q : Type v}

/-- Is an object with the qualifier initialized up to the class that declares the field? -/
def coversOwner (a : Analysis V) (q : Qualifier) (f : FieldId) : Bool :=
  match q.frame? with
  | some frame => a.oracle.frameLe frame f.owner
  | none => true

def declaredUnknown (a : Analysis V) (f : FieldId) : Bool :=
  (a.declarations.field? f).any (·.declaredInitialization.isUnknown)

/-- What a read of a field is widened to, in a system of qualifiers; `none` keeps the declared
type. -/
def adapt (a : Analysis V) (access : FieldAccess) (receiver : Qualifier) (knownAssigned : Bool)
    (system : QualifierSystem Q) : Option Q :=
  if a.options.assumeInitialized || access.kind ≠ .reference then none
  else if !receiver.isPartial then none
  else if a.declaredUnknown access.field then none
  else if a.coversOwner receiver access.field || knownAssigned || access.isTarget then none
  else some system.top

def receiverAt (a : Analysis V) (l : Location) (access : FieldAccess) : Qualifier :=
  access.receiver.getD (a.selfQualifierAt l)

/-- Is a declared field of the current object known to be assigned before a place? -/
def isKnownAssigned (a : Analysis V) (l : Location) (access : FieldAccess) : Bool :=
  access.isSelfAccess && (a.declarations.field? access.field).isSome &&
    (a.results.storeBefore? l).any (·.isInitialized access.field)

def adaptAt (a : Analysis V) (l : Location) (access : FieldAccess) (system : QualifierSystem Q) :
    Option Q :=
  a.adapt access (a.receiverAt l access) (a.isKnownAssigned l access) system

/-- The initialization qualifier of a field read through an unfinished object. The field itself
holds a finished object, unless it is declared to allow for others. -/
def adaptDeclared (a : Analysis V) (access : FieldAccess) (receiver : Qualifier) :
    Option Qualifier :=
  if a.options.assumeInitialized || access.kind ≠ .reference || !receiver.isPartial then none
  else
    match a.declarations.field? access.field with
    | none => none
    | some f =>
      if f.declaredInitialization.isUnknown then none
      else if f.notOnlyInitialized then some (.unknown a.oracle.root)
      else some .initialized

end Analysis

end ObjectInit
