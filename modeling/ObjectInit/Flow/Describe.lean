import ObjectInit.Flow.Store
import ObjectInit.NameTable

/-! # Stores for readers

A dump of a store: the names of the assigned fields in alphabetical order, then a line for each
known value in the order of expressions.
-/

namespace ObjectInit

universe u

def Store.describe {V : Type u} (s : Store V) (names : NameTable) (render : V → String) : String :=
  let fields := (s.initialized.toList.map fun f => names.resolve f.name).mergeSort
  let head := "initialized fields = [" ++ ", ".intercalate fields ++ "]"
  let lines := s.values.entries.map fun e => "\n  " ++ e.1.describe ++ " > " ++ render e.2
  head ++ String.join lines

end ObjectInit
