import ObjectInit.Declaration.Table
import ObjectInit.Flow.Store

/-! # Exemptions

The usual reason not to report an unassigned field: its known value already satisfies what is
declared of it, or nothing invariant is declared of it.
-/

namespace ObjectInit

universe u

/-- The expression by which the declaring class itself reads a field. -/
def FieldDecl.ownExpr (d : FieldDecl) (f : FieldId) : FlowExpr :=
  .field (if d.isStatic then .ofClass f.owner else .self) f

/-- Is a declared field exempt, given the store in which its value is looked up? -/
def invariantExemption {V : Type u} (t : DeclarationTable) (store : Option (Store V))
    (satisfies : V → Bool) (f : FieldId) : Bool :=
  match t.field? f with
  | none => false
  | some d =>
    (store.bind fun s => s.value? (d.ownExpr f)).any satisfies || !d.declaredInvariant

end ObjectInit
