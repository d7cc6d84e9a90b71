import ObjectInit.Identifier

/-! # Type oracles

All that is asked about classes goes through a record of five answers, of which nothing is assumed.
`frameLe`, `frameLub` and `frameGlb` take an oracle's bounds only where its own order confirms them.
-/

namespace ObjectInit

structure TypeOracle where
  /-- Is the first frame the second one or a descendant of it? -/
  isSubtype : Frame → Frame → Bool
  directSupertype? : Frame → Option Frame
  /-- The least common ancestor, if it is unique. -/
  lub? : Frame → Frame → Option Frame
  /-- The greatest common descendant, if it is unique. -/
  glb? : Frame → Frame → Option Frame
  root : Frame

namespace TypeOracle

variable (o : TypeOracle)

/-- The order of frames; a frame is below itself whatever the oracle says. -/
def frameLe (a b : Frame) : Bool := a = b || o.isSubtype a b

/-- The least frame above two frames, or the root where the oracle has none that is above both. -/
def frameLub (a b : Frame) : Frame :=
  if o.frameLe a b then b
  else if o.frameLe b a then a
  else
    match o.lub? a b with
    | some c => if o.frameLe a c && o.frameLe b c then c else o.root
    | none => o.root

/-- The greatest frame below two frames, where the oracle has one that is below both. -/
def frameGlb? (a b : Frame) : Option Frame :=
  if o.frameLe a b then some a
  else if o.frameLe b a then some b
  else
    match o.glb? a b with
    | some c => if o.frameLe c a && o.frameLe c b then some c else none
    | none => none

/-- The frame that a constructor of a class may rely on: its superclass, else the root. -/
def supertypeOrRoot (f : Frame) : Frame := (o.directSupertype? f).getD o.root

end TypeOracle

/-- Answers written down row by row, which need not agree with each other. -/
structure OracleTable where
  root : Frame
  subtypes : List (Frame × Frame)
  supertypes : List (Frame × Frame)
  lubs : List ((Frame × Frame) × Frame)
  glbs : List ((Frame × Frame) × Frame)

namespace OracleTable

/-- The oracle that answers from the rows: a pair is ordered if it is listed, and of several rows
for one question the first counts. -/
def oracle (t : OracleTable) : TypeOracle where
  isSubtype a b := t.subtypes.contains (a, b)
  directSupertype? a := t.supertypes.lookup a
  lub? a b := t.lubs.lookup (a, b)
  glb? a b := t.glbs.lookup (a, b)
  root := t.root

end OracleTable

end ObjectInit
