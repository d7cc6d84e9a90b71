import ObjectInit.Flow.Value
import ObjectInit.Qualifier.System

/-! # Nullness, a type system on top

A type system that uses the initialization qualifiers: references are non-null or nullable. Other
values are tags, which only join with themselves.
-/

namespace ObjectInit

inductive Nullness
  | nonNull
  | nullable
deriving DecidableEq

namespace Nullness

def lub (a b : Nullness) : Nullness := if a = b then a else nullable

def glb (a b : Nullness) : Nullness := if a = b then a else nonNull

def le (a b : Nullness) : Bool := a = b || b = nullable

def qualifiers : QualifierSystem Nullness := ⟨nullable, nonNull, le, lub, glb⟩

def describe : Nullness → String
  | nonNull => "NonNull"
  | nullable => "Nullable"

end Nullness

inductive TrackedValue
  | reference (nullness : Nullness) (initialization : Option Qualifier)
  | tag (number : Nat)
deriving DecidableEq

namespace TrackedValue

/-- What holds of a value that is one of two. References of different initialization lose theirs. -/
def join? : TrackedValue → TrackedValue → Option TrackedValue
  | reference n q, reference n' q' => some (reference (n.lub n') (if q = q' then q else none))
  | tag k, tag k' => if k = k' then some (tag k) else none
  | _, _ => none

def atLeastAsPrecise : TrackedValue → TrackedValue → Bool
  | reference n q, reference n' q' => n.le n' && (q' = none || q = q')
  | tag k, tag k' => k = k'
  | _, _ => false

def initialization? : TrackedValue → Option Qualifier
  | reference _ q => q
  | tag _ => none

instance : AbstractValue TrackedValue := ⟨join?, atLeastAsPrecise, initialization?⟩

def isNonNull : TrackedValue → Bool
  | reference n _ => n = .nonNull
  | tag _ => false

def describe : TrackedValue → String
  | reference n (some q) => n.describe ++ "/Some(" ++ q.describe ++ ")"
  | reference n none => n.describe ++ "/None"
  | tag k => "Tag(" ++ toString k ++ ")"

end TrackedValue

end ObjectInit
