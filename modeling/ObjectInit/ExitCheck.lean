import ObjectInit.Analysis
import ObjectInit.Flow.Entry
import ObjectInit.Message
import ObjectInit.Report.Pending

/-! # Checks at the end of initialization

Fields must be assigned when a constructor ends, by the initializers of a class without one, and by
static initializers. The switch to assume everything initialized is looked at where a class or a
constructor is checked.
-/

namespace ObjectInit

universe u

/-- Does the field never need an assignment in the code of a member with the receiver? -/
def FieldDecl.needsNoAssignment (f : FieldDecl) (options : Options)
    (receiver : Option Qualifier) : Bool :=
  f.isUnusedFor receiver || f.hasInitializer || f.holdsForDefault ||
    (f.isPrimitive && !options.checkPrimitives)

namespace Analysis

variable {V : Type u}

/-- The instance fields that a constructor leaves unassigned at its regular ends. -/
def unassignedByConstructor (a : Analysis V) (m : MemberDecl) (exit : Store V) : List FieldId :=
  (((a.declarations.instanceFieldsOf m.owner).filter
      fun f => !f.needsNoAssignment a.options m.declaredReceiver).filter
      fun f => !exit.isInitialized f.id).map (·.id)

/-- The instance fields of a class that no instance initializer assigns. -/
def unassignedByDefault (a : Analysis V) (frame : Frame) : List FieldId :=
  let assigned := a.declarations.assignedBy a.results frame .instanceInitializer
  ((a.declarations.instanceFieldsOf frame).filter
    fun f => !f.needsNoAssignment a.options none && !assigned.contains f.id).map (·.id)

/-- The static fields of a class that no static initializer assigns. -/
def unassignedStatics (a : Analysis V) (frame : Frame) : List FieldId :=
  let assigned := a.declarations.assignedBy a.results frame .staticInitializer
  ((a.declarations.staticFieldsOf frame).filter
    fun f => !f.needsNoAssignment a.options none && !assigned.contains f.id).map (·.id)

/-- The finding about a constructor: one for all its fields, at the constructor. One that never
ends regularly has nothing to assign. -/
def constructorFinding? (a : Analysis V) (m : MemberId) : Option PendingError :=
  if a.options.assumeInitialized then none
  else
    match a.declarations.member? m, a.results.exitStore? m with
    | some d, some exit =>
      let fields := a.unassignedByConstructor d exit
      if fields.isEmpty then none
      else some { location := d.location, fields := fields, key := Template.fieldsUninitialized }
    | _, _ => none

/-- The finding about the implicit constructor of a class: one for each field, at the class. -/
def defaultConstructorFinding? (a : Analysis V) (frame : Frame) : Option PendingError :=
  match a.declarations.class? frame with
  | none => none
  | some c =>
    let fields := a.unassignedByDefault frame
    if fields.isEmpty then none
    else
      some { location := c.location, fields := fields, key := Template.fieldUninitialized,
             perField := true }

/-- Where static fields are found unassigned: at the last static initializer, or at the first of
the fields if there is none, so that the class itself stays free for another finding. -/
def staticLocation? (a : Analysis V) (frame : Frame) (first : FieldId) : Option Location :=
  (((a.declarations.membersOfKind frame .staticInitializer).getLast?).map (·.location)).or
    ((a.declarations.field? first).map (·.location))

def staticFinding? (a : Analysis V) (frame : Frame) : Option PendingError :=
  match a.unassignedStatics frame with
  | [] => none
  | first :: rest =>
    (a.staticLocation? frame first).map fun l =>
      { location := l, fields := first :: rest, key := Template.staticFieldUninitialized,
        perField := true }

/-- The findings about a class: its constructors, or the implicit one, then its static fields. -/
def classFindings (a : Analysis V) (frame : Frame) : List PendingError :=
  if a.options.assumeInitialized then []
  else
    let constructors := a.declarations.membersOfKind frame .constructor
    let objects :=
      if constructors.isEmpty then (a.defaultConstructorFinding? frame).toList
      else constructors.filterMap fun m => a.constructorFinding? m.id
    objects ++ (a.staticFinding? frame).toList

def checkConstructor (a : Analysis V) (m : MemberId) (b : ErrorBuffer) : ErrorBuffer :=
  b.recordAll (a.constructorFinding? m).toList

def checkDefaultConstructor (a : Analysis V) (frame : Frame) (b : ErrorBuffer) : ErrorBuffer :=
  b.recordAll (a.defaultConstructorFinding? frame).toList

def checkStaticFields (a : Analysis V) (frame : Frame) (b : ErrorBuffer) : ErrorBuffer :=
  b.recordAll (a.staticFinding? frame).toList

def checkClass (a : Analysis V) (frame : Frame) (b : ErrorBuffer) : ErrorBuffer :=
  b.recordAll (a.classFindings frame)

end Analysis

end ObjectInit
