import ObjectInit.Declaration.Table
import ObjectInit.Flow.Store
import ObjectInit.TypeOracle

/-! # Effects of statements, qualifiers of expressions

What a call does to a store under the declarations at hand, and what is known about a freshly
created object.
-/

namespace ObjectInit

universe u

namespace Store

variable {V : Type u}

/-- The effect of a method call: final fields and fields with an invariant keep their values. -/
def callMethod (s : Store V) (t : DeclarationTable) (sideEffectFree : Bool) : Store V :=
  s.call sideEffectFree (fun f => (t.field? f).any (·.isFinal))
    (fun f => (t.field? f).any (·.declaredInvariant))

/-- The effect of a constructor that hands over to another constructor of its class: every instance
field that the class declares is assigned. -/
def callThisConstructor (s : Store V) (t : DeclarationTable) (frame : Frame) : Store V :=
  s.markAll ((t.instanceFieldsOf frame).map (·.id))

end Store

namespace Qualifier

/-- The qualifier of a new object: it is finished if all arguments were. -/
def ofNewObject (frame : Frame) (args : List Qualifier) : Qualifier :=
  if args.all fun q => q = .initialized || q = .bottom then .initialized else .under frame

def ofLiteral (isNull : Bool) : Qualifier := if isNull then .bottom else .initialized

/-- The declared qualifier of what a constructor returns: it relies on the superclass. -/
def ofConstructorResult (o : TypeOracle) (frame : Frame) : Qualifier :=
  .under (o.supertypeOrRoot frame)

end Qualifier

end ObjectInit
