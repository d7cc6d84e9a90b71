import ObjectInit.Identifier

/-! # The table of names

Texts are stored once, in the order in which they first appear; a name is the position of its text,
as a number of 32 bits.
-/

namespace ObjectInit

structure NameTable where
  texts : Array String
deriving DecidableEq

namespace NameTable

/-- The table that holds the empty text, as `Name.none`. -/
def withEmptyName : NameTable := ⟨#[""]⟩

/-- The table that holds nothing: the first text to come takes the first position. -/
def bare : NameTable := ⟨#[]⟩

/-- The name of a position. Beyond 32 bits names start again from the first one. -/
def nameAt (position : Nat) : Name := ⟨position % UInt32.size⟩

def find? (t : NameTable) (s : String) : Option Name := (t.texts.idxOf? s).map nameAt

/-- The name of a text, which is stored at the end if it is new. -/
def intern (t : NameTable) (s : String) : Name × NameTable :=
  match t.find? s with
  | some n => (n, t)
  | none => (nameAt t.texts.size, ⟨t.texts.push s⟩)

/-- The text of a name. A name that was never handed out has the empty text, so that a message
about it can still be written. -/
def resolve (t : NameTable) (n : Name) : String := t.texts[n.index]?.getD ""

def size (t : NameTable) : Nat := t.texts.size

/-- Is there at most one text, as there is in a new table? -/
def isEmpty (t : NameTable) : Bool := t.size ≤ 1

end NameTable

end ObjectInit
