/-! # Identifiers

Numbers that somebody else handed out. They differ only in what they number, so each has a type of
its own, an order, and the text by which messages show it.
-/

namespace ObjectInit

/-- Things that are compared by what tells them apart are equal if they compare as equal. -/
theorem lawfulEqCmp_compareOn {α β : Type} [Ord β] [Std.LawfulEqOrd β] {tells : α → β}
    (apart : ∀ {a b}, tells a = tells b → a = b) : Std.LawfulEqCmp (compareOn tells) where
  compare_self {a} := (Std.ReflCmp.compare_self : compare (tells a) (tells a) = .eq)
  eq_of_compare equal := apart (Std.LawfulEqCmp.eq_of_compare equal)

/-- A name: its position in a name table. -/
structure Name where
  index : Nat
deriving DecidableEq

namespace Name

/-- The position kept for the empty name. -/
def none : Name := ⟨0⟩

def isNone (n : Name) : Bool := n.index == 0

def describe (n : Name) : String := "Atom(" ++ toString n.index ++ ")"

instance : Ord Name := ⟨compareOn Name.index⟩
instance : Std.TransOrd Name := inferInstanceAs (Std.TransCmp (compareOn Name.index))
instance : Std.LawfulEqOrd Name := lawfulEqCmp_compareOn (congrArg Name.mk)

end Name

/-- A position in the class hierarchy: a class, not an instance of one. -/
structure Frame where
  index : Nat
deriving DecidableEq

namespace Frame

def label (f : Frame) : String := "frame#" ++ toString f.index

def describe (f : Frame) : String := "TypeFrame(" ++ toString f.index ++ ")"

instance : Ord Frame := ⟨compareOn Frame.index⟩
instance : Std.TransOrd Frame := inferInstanceAs (Std.TransCmp (compareOn Frame.index))
instance : Std.LawfulEqOrd Frame := lawfulEqCmp_compareOn (congrArg Frame.mk)

end Frame

structure Location where
  index : Nat
deriving DecidableEq

namespace Location

/-- The place that is no place: the last number of 32 bits. -/
def none : Location := ⟨4294967295⟩

def isNone (l : Location) : Bool := l == none

def isSome (l : Location) : Bool := l != none

def describe (l : Location) : String := "NodeIndex(" ++ toString l.index ++ ")"

instance : Ord Location := ⟨compareOn Location.index⟩
instance : Std.TransOrd Location := inferInstanceAs (Std.TransCmp (compareOn Location.index))
instance : Std.LawfulEqOrd Location := lawfulEqCmp_compareOn (congrArg Location.mk)

end Location

/-- A member of a class: its position among all declared members. -/
structure MemberId where
  index : Nat
deriving DecidableEq

namespace MemberId

def describe (m : MemberId) : String := "MemberId(" ++ toString m.index ++ ")"

instance : Ord MemberId := ⟨compareOn MemberId.index⟩
instance : Std.TransOrd MemberId := inferInstanceAs (Std.TransCmp (compareOn MemberId.index))
instance : Std.LawfulEqOrd MemberId := lawfulEqCmp_compareOn (congrArg MemberId.mk)

end MemberId

structure LocalId where
  index : Nat
deriving DecidableEq

namespace LocalId

def describe (l : LocalId) : String := "LocalId(" ++ toString l.index ++ ")"

end LocalId

structure FieldId where
  owner : Frame
  name : Name
deriving DecidableEq

namespace FieldId

def describe (f : FieldId) : String :=
  "FieldId \x7b owner: " ++ f.owner.describe ++ ", name: " ++ f.name.describe ++ " \x7d"

def rank (f : FieldId) : List Nat := [f.owner.index, f.name.index]

theorem rank_injective {f g : FieldId} (h : f.rank = g.rank) : f = g := by
  obtain ⟨⟨_⟩, ⟨_⟩⟩ := f
  obtain ⟨⟨_⟩, ⟨_⟩⟩ := g
  simp_all [rank]

instance : Ord FieldId := ⟨compareOn rank⟩
instance : Std.TransOrd FieldId := inferInstanceAs (Std.TransCmp (compareOn rank))
instance : Std.LawfulEqOrd FieldId := lawfulEqCmp_compareOn rank_injective

end FieldId

end ObjectInit
