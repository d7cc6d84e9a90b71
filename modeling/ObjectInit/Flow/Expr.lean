import ObjectInit.Identifier

/-! # Expressions a store can know

An expression is the current object, a local variable, or a field reached through something. Fields
reached through an arbitrary expression have no identity of their own and are never known.
-/

namespace ObjectInit

inductive Receiver
  /-- The current object. -/
  | self
  /-- A class, by its name. -/
  | ofClass (frame : Frame)
  /-- A local variable or a parameter. -/
  | localVar (id : LocalId)
  | other
deriving DecidableEq

inductive FlowExpr
  | self
  | localVar (id : LocalId)
  | field (receiver : Receiver) (id : FieldId)
deriving DecidableEq

namespace Receiver

def rank : Receiver → List Nat
  | self => [0]
  | ofClass f => [1, f.index]
  | localVar l => [2, l.index]
  | other => [3]

def describe : Receiver → String
  | self => "This"
  | ofClass f => "Class(" ++ f.describe ++ ")"
  | localVar l => "Local(" ++ l.describe ++ ")"
  | other => "Opaque"

end Receiver

namespace FlowExpr

/-- Can a store hold a value for the expression? -/
def isTrackable : FlowExpr → Bool
  | field .other _ => false
  | _ => true

def field? : FlowExpr → Option FieldId
  | field _ f => some f
  | self | localVar _ => none

/-- The field of an object under construction or of a class that an assignment to the expression
assigns for good. -/
def ownField? : FlowExpr → Option FieldId
  | field .self f | field (.ofClass _) f => some f
  | _ => none

def rank : FlowExpr → List Nat
  | self => [0]
  | localVar l => [1, l.index]
  | field r f => 2 :: (r.rank ++ f.rank)

theorem rank_injective {e e' : FlowExpr} (h : e.rank = e'.rank) : e = e' := by
  cases e with
  | self => cases e' <;> simp_all [rank]
  | localVar l =>
    cases e' with
    | localVar l' =>
      cases l; cases l'
      simp_all [rank]
    | self => simp [rank] at h
    | field r f => simp [rank] at h
  | field r f =>
    obtain ⟨⟨_⟩, ⟨_⟩⟩ := f
    cases e' with
    | field r' f' =>
      obtain ⟨⟨_⟩, ⟨_⟩⟩ := f'
      cases r <;> cases r' <;> simp_all [rank, Receiver.rank, FieldId.rank]
      all_goals (rename_i x y; cases x; cases y; simp_all)
    | self => simp [rank] at h
    | localVar l => simp [rank] at h

instance : Ord FlowExpr := ⟨compareOn rank⟩
instance : Std.TransOrd FlowExpr := inferInstanceAs (Std.TransCmp (compareOn rank))
instance : Std.LawfulEqOrd FlowExpr := lawfulEqCmp_compareOn rank_injective

def describe : FlowExpr → String
  | self => "This"
  | localVar l => "Local(" ++ l.describe ++ ")"
  | field r f => "Field \x7b receiver: " ++ r.describe ++ ", field: " ++ f.describe ++ " \x7d"

end FlowExpr

end ObjectInit
