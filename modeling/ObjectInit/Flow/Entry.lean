import ObjectInit.Declaration.Table
import ObjectInit.Flow.Results
import ObjectInit.Options.Basic

/-! # Stores at the entry of a member

Fields with an initializer or a default that will do are assigned already, for the code of an object
static fields too, and a constructor starts with what the instance initializers assign.
-/

namespace ObjectInit

universe u

/-- Is the field assigned before the member's first statement? -/
def FieldDecl.isSetOnEntry (f : FieldDecl) (options : Options) (kind : MemberKind) : Bool :=
  !(kind.isStatic && !f.isStatic) &&
    ((f.isStatic && !kind.isStatic) || f.hasInitializer || f.holdsForDefault ||
      (f.isPrimitive && !options.checkPrimitives))

namespace DeclarationTable

variable {V : Type u}

/-- The store at the entry of a member. An undeclared member knows nothing. -/
def entryStore (t : DeclarationTable) (options : Options) (m : MemberId) : Store V :=
  match t.member? m with
  | none => ∅
  | some d =>
    Store.empty.markAll
      (((t.fieldsOf d.owner).filter fun f => f.isSetOnEntry options d.kind).map (·.id))

/-- The fields assigned at a regular end of some member of a kind. -/
def assignedBy (t : DeclarationTable) (results : FlowResults V) (frame : Frame)
    (kind : MemberKind) : List FieldId :=
  (t.membersOfKind frame kind).flatMap fun m =>
    match results.exitStore? m.id with
    | some s => s.initialized.toList
    | none => []

/-- The store at the entry of a member, for a constructor with what the instance initializers
assign. -/
def entryStoreAfterInitializers (t : DeclarationTable) (options : Options)
    (results : FlowResults V) (m : MemberId) : Store V :=
  let s := t.entryStore options m
  match t.member? m with
  | none => s
  | some d =>
    if d.kind = .constructor then
      s.markAll (t.assignedBy results d.owner .instanceInitializer)
    else s

end DeclarationTable

end ObjectInit
