import ObjectInit.Declaration.Table
import ObjectInit.Flow.Results
import ObjectInit.Options.Basic
import ObjectInit.TypeOracle

/-! # What the checks consult

Once declarations are collected and the flow analysis is finished, everything that a check looks at
is fixed.
-/

namespace ObjectInit

universe u

structure Analysis (V : Type u) where
  declarations : DeclarationTable
  oracle : TypeOracle
  options : Options
  results : FlowResults V

end ObjectInit
