import ObjectInit.Qualifier.Basic
import ObjectInit.TypeOracle

/-! # The lattice of qualifiers

`bottom` is below everything, `initialized` is below every `unknown f` and unrelated to every `under
f`, and `under f` is below `unknown g` when `f` is below `g`. The operations are total: an upper
bound that the oracle does not have is the root, and a lower one leaves `bottom` or `initialized`.
-/

namespace ObjectInit

namespace Qualifier

variable (o : TypeOracle)

def top : Qualifier := unknown o.root

/-- The weakest qualifier of an object under construction. -/
def underTop : Qualifier := under o.root

/-- Does every object of the first qualifier have the second? -/
def le : Qualifier → Qualifier → Bool
  | bottom, _ => true
  | _, bottom => false
  | initialized, initialized => true
  | initialized, unknown _ => true
  | initialized, under _ => false
  | under f, under g => o.frameLe f g
  | under f, unknown g => o.frameLe f g
  | under _, initialized => false
  | unknown f, unknown g => o.frameLe f g
  | unknown _, initialized => false
  | unknown _, under _ => false

/-- The upper bound of two qualifiers of which neither is below the other. -/
def lubApart : Qualifier → Qualifier → Qualifier
  | initialized, under f => unknown f
  | under f, initialized => unknown f
  | under f, under g => under (o.frameLub f g)
  | under f, unknown g => unknown (o.frameLub f g)
  | unknown f, unknown g => unknown (o.frameLub f g)
  | unknown f, under g => unknown (o.frameLub f g)
  | _, _ => top o

def lub (a b : Qualifier) : Qualifier :=
  if le o a b then b else if le o b a then a else lubApart o a b

/-- The lower bound of two qualifiers of which neither is below the other. Two unknown qualifiers
always share `initialized`; whatever else is below both is below it. -/
def glbApart : Qualifier → Qualifier → Qualifier
  | under f, under g => ((o.frameGlb? f g).map under).getD bottom
  | under f, unknown g => ((o.frameGlb? f g).map under).getD bottom
  | unknown f, under g => ((o.frameGlb? f g).map under).getD bottom
  | unknown f, unknown g => ((o.frameGlb? f g).map unknown).getD initialized
  | _, _ => bottom

def glb (a b : Qualifier) : Qualifier :=
  if le o a b then a else if le o b a then b else glbApart o a b

def lubAll (qs : List Qualifier) : Qualifier := qs.foldl (lub o) bottom

end Qualifier

end ObjectInit
