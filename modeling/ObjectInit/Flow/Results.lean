import ObjectInit.Flow.Store

/-! # Results of a flow analysis

Whoever walks the control flow writes down the store before each place and the stores with which a
member ends. The checks only read them.
-/

namespace ObjectInit

universe u

structure FlowResults (V : Type u) where
  before : FiniteMap Location (Store V)
  exits : FiniteMap MemberId (Store V)
deriving DecidableEq

namespace FlowResults

variable {V : Type u}

def empty : FlowResults V := ⟨∅, ∅⟩

instance : EmptyCollection (FlowResults V) := ⟨empty⟩

def storeBefore? (r : FlowResults V) (l : Location) : Option (Store V) := r.before.get? l

/-- What is known at the regular ends of a member; nothing, if it has none. -/
def exitStore? (r : FlowResults V) (m : MemberId) : Option (Store V) := r.exits.get? m

/-- Writes down the store before a place; a later one replaces it. -/
def recordBefore (r : FlowResults V) (l : Location) (s : Store V) : FlowResults V :=
  { r with before := r.before.insert l s }

def locations (r : FlowResults V) : List Location := r.before.keys

/-- Writes down one regular end of a member, which is merged with the ends found before. -/
def recordExit [DecidableEq V] [AbstractValue V] (r : FlowResults V) (m : MemberId)
    (s : Store V) : FlowResults V :=
  let all := match r.exits.get? m with
    | some known => known.merge s
    | none => s
  { r with exits := r.exits.insert m all }

end FlowResults

end ObjectInit
