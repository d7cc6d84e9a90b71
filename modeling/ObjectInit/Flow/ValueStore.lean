import ObjectInit.Data.FiniteMap
import ObjectInit.Flow.Expr
import ObjectInit.Flow.Value

/-! # Values of expressions

What is known about the values of expressions at a point of a program. A point reached in two ways
keeps the expressions known on both, as far as their values can be joined.
-/

namespace ObjectInit

universe u

abbrev ValueStore (V : Type u) := FiniteMap FlowExpr V

namespace ValueStore

variable {V : Type u}

/-- Gives an expression a value. One that cannot be tracked is left out. -/
def put (s : ValueStore V) (e : FlowExpr) (v : V) : ValueStore V :=
  if e.isTrackable then s.insert e v else s

def putAll (s : ValueStore V) (entries : List (FlowExpr × V)) : ValueStore V :=
  entries.foldl (fun s e => s.put e.1 e.2) s

def readsFieldWhere (p : FieldId → Bool) (e : FlowExpr) : Bool := e.field?.any p

/-- Takes out the values of the fields that satisfy a test, and gives what is left. -/
def takeFields (s : ValueStore V) (p : FieldId → Bool) : List (FlowExpr × V) × ValueStore V :=
  (s.entries.filter fun e => readsFieldWhere p e.1, s.filter fun e => !readsFieldWhere p e.1)

/-- Forgets what a call may have changed: the fields that are not final. A call without side
effects changes nothing. -/
def forgetAfterCall (s : ValueStore V) (sideEffectFree : Bool) (isFinal : FieldId → Bool) :
    ValueStore V :=
  if sideEffectFree then s
  else s.filter fun e => e.1.field?.all isFinal

variable [DecidableEq V] [AbstractValue V]

def join (a b : ValueStore V) : ValueStore V := FiniteMap.meet AbstractValue.join? a b

/-- Does `a` know every expression that `b` knows, at least as precisely? -/
def atLeastAsPrecise (a b : ValueStore V) : Bool :=
  b.entries.all fun e => (a.get? e.1).any fun mine => AbstractValue.atLeastAsPrecise mine e.2

end ValueStore

end ObjectInit
