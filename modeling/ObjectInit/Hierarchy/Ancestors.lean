import ObjectInit.Hierarchy.Basic
import ObjectInit.Hierarchy.FrameSet

/-! # Ancestors and subtypes

Ancestors are collected level by level, and not beyond a fixed number of levels. The root is an
ancestor of every known frame at whatever distance.
-/

namespace ObjectInit.Hierarchy

/-- The longest inheritance path that is followed. -/
def depthLimit : Nat := 1024

/-- The frames in `seen` and those that `depth` further levels above the frontier reach. A frame
enters the frontier once, when it is first met. -/
def climb (h : Hierarchy) : Nat → FrameSet → List Frame → FrameSet
  | 0, seen, _ => seen
  | _ + 1, seen, [] => seen
  | depth + 1, seen, frontier =>
    let next := seen.fresh (frontier.flatMap h.parents)
    h.climb depth (seen.insertAll next) next

/-- A known frame, what it inherits from within the depth limit, and the root. -/
def lineage (h : Hierarchy) (f : Frame) : FrameSet :=
  if h.knows f then (h.climb depthLimit (FrameSet.empty.insert f) [f]).insert root
  else FrameSet.empty

/-- The ancestors of a frame, itself included, in increasing order. A frame without an entry has
only itself. -/
def ancestors (h : Hierarchy) (f : Frame) : List Frame :=
  if h.knows f then
    let up := h.lineage f
    h.frames.filter up.contains
  else [f]

/-- Is `sub` the frame `sup`, or is `sup` in the lineage `up` of `sub`? Only known frames are
related. The lineage is an argument so that it serves many questions about one frame. -/
def isBelow (h : Hierarchy) (up : FrameSet) (sub sup : Frame) : Bool :=
  h.knows sub && h.knows sup && (sub = sup || sup = root || up.contains sup)

def isSubtype (h : Hierarchy) (sub sup : Frame) : Bool := h.isBelow (h.lineage sub) sub sup

/-- The direct superclass of a frame. An interface counts as extending the root. -/
def directSupertype? (h : Hierarchy) (f : Frame) : Option Frame :=
  match h.node? f with
  | none => none
  | some n => if n.isInterface then some root else n.superclass

end ObjectInit.Hierarchy
