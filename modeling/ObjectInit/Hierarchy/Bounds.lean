import ObjectInit.Hierarchy.Ancestors
import ObjectInit.TypeOracle

/-! # Bounds in the hierarchy

The least common ancestor is the only minimal one or, among several, the only class. A greatest
common descendant is taken only when it is the only maximal one.
-/

namespace ObjectInit.Hierarchy

/-- The frames of a list that have no strict descendant in the list. -/
def mostSpecific (h : Hierarchy) (fs : List Frame) : List Frame :=
  let rows := fs.map fun d => (d, h.lineage d)
  fs.filter fun c => !rows.any fun row => row.1 ≠ c && h.isBelow row.2 row.1 c

theorem mostSpecific_eq (h : Hierarchy) (fs : List Frame) :
    h.mostSpecific fs = fs.filter fun c => !fs.any fun d => d ≠ c && h.isSubtype d c := by
  simp only [mostSpecific, List.any_map]
  rfl

/-- The frames of a list that have no strict ancestor in the list. -/
def mostGeneral (h : Hierarchy) (fs : List Frame) : List Frame :=
  fs.filter fun c =>
    let up := h.lineage c
    !fs.any fun d => d ≠ c && h.isBelow up c d

theorem mostGeneral_eq (h : Hierarchy) (fs : List Frame) :
    h.mostGeneral fs = fs.filter fun c => !fs.any fun d => d ≠ c && h.isSubtype c d := rfl

def commonAncestors (h : Hierarchy) (a b : Frame) : List Frame :=
  if h.knows b then
    let up := h.lineage b
    (h.ancestors a).filter up.contains
  else (h.ancestors a).filter (· = b)

def commonDescendants (h : Hierarchy) (a b : Frame) : List Frame :=
  h.frames.filter fun f =>
    let up := h.lineage f
    h.isBelow up f a && h.isBelow up f b

theorem commonDescendants_eq (h : Hierarchy) (a b : Frame) :
    h.commonDescendants a b = h.frames.filter fun f => h.isSubtype f a && h.isSubtype f b := rfl

def sole? : List Frame → Option Frame
  | [f] => some f
  | _ => none

/-- The least common ancestor of two frames, where the hierarchy leaves no choice. -/
def lub? (h : Hierarchy) (a b : Frame) : Option Frame :=
  if h.isSubtype a b then some b
  else if h.isSubtype b a then some a
  else
    let minimal := h.mostSpecific (h.commonAncestors a b)
    (sole? minimal).or (sole? (minimal.filter fun f => !h.isInterface f))

/-- The greatest common descendant of two frames, where the hierarchy leaves no choice. -/
def glb? (h : Hierarchy) (a b : Frame) : Option Frame :=
  if h.isSubtype a b then some a
  else if h.isSubtype b a then some b
  else sole? (h.mostGeneral (h.commonDescendants a b))

def oracle (h : Hierarchy) : TypeOracle where
  isSubtype := h.isSubtype
  directSupertype? := h.directSupertype?
  lub? := h.lub?
  glb? := h.glb?
  root := root

end ObjectInit.Hierarchy
