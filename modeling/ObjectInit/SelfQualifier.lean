import ObjectInit.Analysis

/-! # The qualifier of the current object

Inside a constructor or an instance initializer the current object is initialized up to the
superclass and, once every field that the class itself declares is assigned, up to the class. Fields
of the superclasses are not looked at: their constructors have been checked on their own.
-/

namespace ObjectInit.Analysis

universe u

variable {V : Type u}

/-- The most enclosing objects that are considered for one place. -/
def enclosingLimit : Nat := 64

/-- Does the store have every field that the member's class declares for its objects? Fields that
the member's receiver does not use do not count. -/
def ownFieldsAssigned (a : Analysis V) (m : MemberDecl) (s : Store V) : Bool :=
  ((a.declarations.instanceFieldsOf m.owner).filter fun f => !f.isUnusedFor m.declaredReceiver).all
    fun f => s.isInitialized f.id

/-- The qualifier of an object whose class has assigned all its fields. -/
def committedQualifier (a : Analysis V) (frame : Frame) : Qualifier :=
  if a.declarations.isFinalClass frame then .initialized else .under frame

/-- The qualifier of an object whose class has not yet assigned all its fields. -/
def uncommittedQualifier (a : Analysis V) (frame : Frame) : Qualifier :=
  .under (a.oracle.supertypeOrRoot frame)

/-- The qualifier of the current object at a place in a member. Static members have no current
object; classes are always initialized. -/
def selfQualifierIn (a : Analysis V) (m : MemberDecl) (l : Location) : Qualifier :=
  match m.kind with
  | .constructor | .instanceInitializer =>
    if a.declarations.allFieldsInitializedOnly m.owner &&
        (a.results.storeBefore? l).any (a.ownFieldsAssigned m) then
      a.committedQualifier m.owner
    else a.uncommittedQualifier m.owner
  | .method => m.declaredReceiver.getD .initialized
  | .staticInitializer | .staticMethod => .initialized

/-- The qualifier of the current object at a place. Outside every member nothing is known but that
an object is being built. -/
def selfQualifierAt (a : Analysis V) (l : Location) : Qualifier :=
  if a.options.assumeInitialized then .initialized
  else
    match a.declarations.enclosingMember? l with
    | some m => a.selfQualifierIn m l
    | none => .under a.oracle.root

/-- The place where the object around a member's object is to be looked at: where the member's
class is created, if its objects keep a reference to the object that creates them. -/
def outerSite? (a : Analysis V) (m : MemberDecl) : Option Location :=
  match (a.declarations.class? m.owner).bind (·.enclosing) with
  | some site => if site.capturesOuter then some site.location else none
  | none => none

def selfQualifiersFrom (a : Analysis V) : Nat → Location → List (Frame × Qualifier)
  | 0, _ => []
  | limit + 1, l =>
    match a.declarations.enclosingMember? l with
    | none => []
    | some m =>
      let q := if a.options.assumeInitialized then .initialized else a.selfQualifierIn m l
      (m.owner, q) ::
        match a.outerSite? m with
        | some site => a.selfQualifiersFrom limit site
        | none => []

/-- The current object at a place and the objects around it, the innermost first, each by its class
and its qualifier. -/
def selfQualifiersAt (a : Analysis V) (l : Location) : List (Frame × Qualifier) :=
  a.selfQualifiersFrom enclosingLimit l

end ObjectInit.Analysis
