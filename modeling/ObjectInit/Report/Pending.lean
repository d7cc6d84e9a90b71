import ObjectInit.Flow.Results
import ObjectInit.Declaration.Table

/-! # Pending errors

Whether an unassigned field is an error is for the type system on top to say, so findings wait in a
buffer, at most one for each place.
-/

namespace ObjectInit

universe u

structure PendingError where
  location : Location
  fields : List FieldId
  /-- The key of the message, which is also what a suppression names. -/
  key : String
  /-- Arguments of the message in place of the names of the fields, if there are any. -/
  extraArgs : List String := []
  /-- Values are looked up before the place, not at the end of the member at the place. -/
  checkBefore : Bool := false
  /-- One diagnostic for each field, where it is declared. -/
  perField : Bool := false
deriving DecidableEq

namespace PendingError

/-- The store in which the values of the fields are looked up. -/
def relevantStore? {V : Type u} (e : PendingError) (t : DeclarationTable)
    (results : FlowResults V) : Option (Store V) :=
  if e.checkBefore then results.storeBefore? e.location
  else (t.enclosingMember? e.location).bind fun m => results.exitStore? m.id

end PendingError

/-- Findings in the order in which their places were first recorded. -/
structure ErrorBuffer where
  errors : List PendingError
deriving DecidableEq

namespace ErrorBuffer

def empty : ErrorBuffer := ⟨[]⟩

instance : EmptyCollection ErrorBuffer := ⟨empty⟩

/-- Puts a finding in place of one at the same place, else at the end. -/
def put (e : PendingError) : List PendingError → List PendingError
  | [] => [e]
  | e' :: rest => if e'.location = e.location then e :: rest else e' :: put e rest

def record (b : ErrorBuffer) (e : PendingError) : ErrorBuffer := ⟨put e b.errors⟩

def recordAll (b : ErrorBuffer) (es : List PendingError) : ErrorBuffer := es.foldl record b

def pending? (b : ErrorBuffer) (l : Location) : Option PendingError :=
  b.errors.find? (·.location = l)

def locations (b : ErrorBuffer) : List Location := b.errors.map (·.location)

def size (b : ErrorBuffer) : Nat := b.errors.length

def isEmpty (b : ErrorBuffer) : Bool := b.errors.isEmpty

/-- The findings at other places. -/
def drop (b : ErrorBuffer) (l : Location) : ErrorBuffer := ⟨b.errors.filter (·.location ≠ l)⟩

end ErrorBuffer

end ObjectInit
