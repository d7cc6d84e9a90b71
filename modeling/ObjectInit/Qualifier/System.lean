import ObjectInit.Qualifier.Lattice

/-! # Qualifier systems

A system of qualifiers with bounds, as a checker that builds on this one supplies it. The
initialization qualifiers are one.
-/

namespace ObjectInit

universe u

structure QualifierSystem (Q : Type u) where
  top : Q
  bottom : Q
  le : Q → Q → Bool
  lub : Q → Q → Q
  glb : Q → Q → Q

def TypeOracle.qualifiers (o : TypeOracle) : QualifierSystem Qualifier where
  top := Qualifier.top o
  bottom := .bottom
  le := Qualifier.le o
  lub := Qualifier.lub o
  glb := Qualifier.glb o

end ObjectInit
