import ObjectInit.Data.FiniteSet
import ObjectInit.Flow.ValueStore

/-! # Initialization stores

A store describes one point of a member's body. Along a path the set of assigned fields only grows;
where paths meet, the fields assigned on both remain.
-/

namespace ObjectInit

universe u

structure Store (V : Type u) where
  initialized : FiniteSet FieldId
  values : ValueStore V
deriving DecidableEq

namespace Store

variable {V : Type u}

def empty : Store V := ⟨∅, ∅⟩

instance : EmptyCollection (Store V) := ⟨empty⟩

/-- Is the field assigned on every path? -/
def isInitialized (s : Store V) (f : FieldId) : Bool := s.initialized.contains f

def value? (s : Store V) (e : FlowExpr) : Option V := s.values.get? e

def mark (s : Store V) (f : FieldId) : Store V := { s with initialized := s.initialized.add f }

def markAll (s : Store V) (fs : List FieldId) : Store V :=
  { s with initialized := s.initialized.addAll fs }

/-- Assigns a value. A field of the current object or of a class then counts as assigned. -/
def assign (s : Store V) (target : FlowExpr) (v : V) : Store V :=
  { initialized :=
      match target.ownField? with
      | some f => s.initialized.add f
      | none => s.initialized
    values := s.values.put target v }

/-- The effect of a call. The values of fields with an invariant are set aside while what the call
may have changed is forgotten. -/
def call (s : Store V) (sideEffectFree : Bool) (isFinal isInvariant : FieldId → Bool) : Store V :=
  let (aside, rest) := s.values.takeFields isInvariant
  { s with values := (rest.forgetAfterCall sideEffectFree isFinal).putAll aside }

variable [DecidableEq V] [AbstractValue V]

def merge (a b : Store V) : Store V :=
  ⟨a.initialized.inter b.initialized, a.values.join b.values⟩

def atLeastAsPrecise (a b : Store V) : Bool :=
  b.initialized.subset a.initialized && a.values.atLeastAsPrecise b.values

/-- Is the value of an expression known to be that of a finished object? -/
def isCommitted (s : Store V) (e : FlowExpr) : Bool :=
  ((s.value? e).bind AbstractValue.initialization?).any (·.isInitialized)

/-- Is the expression known to be assigned? A field of the current object or of a class is, if it
is in the set; a field of a local variable, if the variable refers to a finished object. -/
def isExpressionInitialized (s : Store V) : FlowExpr → Bool
  | .field .self f | .field (.ofClass _) f => s.isInitialized f
  | .field (.localVar l) _ => s.isCommitted (.localVar l)
  | .field .other _ => false
  | .self => s.isCommitted .self
  | .localVar l => s.isCommitted (.localVar l)

end Store

end ObjectInit
