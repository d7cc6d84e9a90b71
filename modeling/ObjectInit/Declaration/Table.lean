import ObjectInit.Data.FiniteMap
import ObjectInit.Declaration.Basic

/-! # The declaration table

A refused declaration leaves the table as it was. Fields and members of a class keep the order in
which they were declared, so that a message lists them as the program does.
-/

namespace ObjectInit

structure DeclarationTable where
  classes : FiniteMap Frame ClassDecl
  fields : FiniteMap FieldId FieldDecl
  members : Array MemberDecl
  /-- The member that a place lies in. -/
  memberAt : FiniteMap Location MemberId
deriving DecidableEq

namespace DeclarationTable

def empty : DeclarationTable := ⟨∅, ∅, #[], ∅⟩

instance : EmptyCollection DeclarationTable := ⟨empty⟩

/-! ## Declaring -/

def declareClass (t : DeclarationTable) (frame : Frame) (name : Name) (location : Location)
    (isFinal : Bool) : Except DeclarationError Unit × DeclarationTable :=
  match t.classes.get? frame with
  | some _ => (.error (.duplicateClass frame), t)
  | none =>
    let c : ClassDecl := ⟨frame, name, location, isFinal, none, [], []⟩
    (.ok (), { t with classes := t.classes.insert frame c })

/-- Tells where an inner class is created. The place must lie in a member. -/
def setEnclosingSite (t : DeclarationTable) (inner : Frame) (site : EnclosingSite) :
    Except DeclarationError Unit × DeclarationTable :=
  match t.memberAt.get? site.location, t.classes.get? inner with
  | none, _ => (.error (.enclosingSiteOutsideMember site.location inner), t)
  | some _, none => (.error (.unknownClass inner), t)
  | some _, some c =>
    (.ok (), { t with classes := t.classes.insert inner { c with enclosing := some site } })

def declareField (t : DeclarationTable) (field : FieldDecl) :
    Except DeclarationError FieldId × DeclarationTable :=
  let id := field.id
  match t.fields.get? id, t.classes.get? id.owner with
  | some _, _ => (.error (.duplicateField id), t)
  | none, none => (.error (.unknownClass id.owner), t)
  | none, some c =>
    (.ok id, { t with
      classes := t.classes.insert id.owner { c with fields := c.fields ++ [id] }
      fields := t.fields.insert id field })

/-- Declares a member of a declared class, at a place that no member has. -/
def declareMember (t : DeclarationTable) (owner : Frame) (kind : MemberKind)
    (location : Location) (receiver : Option Qualifier) :
    Except DeclarationError MemberId × DeclarationTable :=
  let id : MemberId := ⟨t.members.size⟩
  match t.memberAt.get? location, t.classes.get? owner with
  | some existing, _ => (.error (.locationAlreadyRegistered location existing), t)
  | none, none => (.error (.unknownClass owner), t)
  | none, some c =>
    (.ok id, { t with
      classes := t.classes.insert owner { c with members := c.members ++ [id] }
      members := t.members.push ⟨id, owner, kind, location, receiver⟩
      memberAt := t.memberAt.insert location id })

def member? (t : DeclarationTable) (id : MemberId) : Option MemberDecl := t.members[id.index]?

/-- Tells that a place lies in a member. To say so again of the same member is no fault. -/
def registerLocation (t : DeclarationTable) (location : Location) (id : MemberId) :
    Except DeclarationError Unit × DeclarationTable :=
  match t.member? id, t.memberAt.get? location with
  | none, _ => (.error (.unknownMember id), t)
  | some _, some existing =>
    if existing = id then (.ok (), t)
    else (.error (.locationAlreadyRegistered location existing), t)
  | some _, none => (.ok (), { t with memberAt := t.memberAt.insert location id })

/-! ## Asking -/

def class? (t : DeclarationTable) (frame : Frame) : Option ClassDecl := t.classes.get? frame

def field? (t : DeclarationTable) (id : FieldId) : Option FieldDecl := t.fields.get? id

/-- The field of a name among those that a class declares itself. -/
def fieldByName? (t : DeclarationTable) (owner : Frame) (name : Name) : Option FieldDecl :=
  t.field? ⟨owner, name⟩

def enclosingMember? (t : DeclarationTable) (location : Location) : Option MemberDecl :=
  (t.memberAt.get? location).bind t.member?

def fieldsOf (t : DeclarationTable) (frame : Frame) : List FieldDecl :=
  match t.class? frame with
  | some c => c.fields.filterMap t.field?
  | none => []

/-- The fields of each object of a class that the class declares itself, in order. -/
def instanceFieldsOf (t : DeclarationTable) (frame : Frame) : List FieldDecl :=
  (t.fieldsOf frame).filter fun f => !f.isStatic

def staticFieldsOf (t : DeclarationTable) (frame : Frame) : List FieldDecl :=
  (t.fieldsOf frame).filter (·.isStatic)

def membersOf (t : DeclarationTable) (frame : Frame) : List MemberDecl :=
  match t.class? frame with
  | some c => c.members.filterMap t.member?
  | none => []

def membersOfKind (t : DeclarationTable) (frame : Frame) (kind : MemberKind) : List MemberDecl :=
  (t.membersOf frame).filter (·.kind = kind)

def hasExplicitConstructor (t : DeclarationTable) (frame : Frame) : Bool :=
  !(t.membersOfKind frame .constructor).isEmpty

/-- Does no instance field of the class allow for objects under construction? -/
def allFieldsInitializedOnly (t : DeclarationTable) (frame : Frame) : Bool :=
  (t.instanceFieldsOf frame).all fun f => !f.notOnlyInitialized

def isFinalClass (t : DeclarationTable) (frame : Frame) : Bool := (t.class? frame).any (·.isFinal)

end DeclarationTable

end ObjectInit
