import ObjectInit.Qualifier.Basic

/-! # Abstract values

What is known about the value of an expression belongs to the type system that uses this library.
The library only joins, compares, and asks for an initialization qualifier.
-/

namespace ObjectInit

universe u

class AbstractValue (V : Type u) [DecidableEq V] where
  /-- What holds of a value that is one of two; `none` if nothing can be said. -/
  join? : V → V → Option V
  /-- Does the first value say at least as much as the second? -/
  atLeastAsPrecise : V → V → Bool := fun a b => a = b
  /-- The initialization qualifier of the value, if the type system keeps one. -/
  initialization? : V → Option Qualifier := fun _ => none

end ObjectInit
