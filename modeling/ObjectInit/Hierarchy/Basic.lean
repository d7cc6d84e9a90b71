import ObjectInit.Identifier

/-! # The class hierarchy

A frame is a position in a growing list of classes and interfaces, of which the first is the root.
Whatever a new entry inherits from must be there already.
-/

namespace ObjectInit

inductive HierarchyError
  | duplicateClass (name : Name)
  | unknownFrame (frame : Frame)
  | finalSuperclass (frame : Frame)
  | interfaceAsSuperclass (frame : Frame)
  | classAsInterface (frame : Frame)
deriving DecidableEq

namespace HierarchyError

def message : HierarchyError → String
  | duplicateClass n => "class " ++ n.describe ++ " is already declared"
  | unknownFrame f => "unknown class " ++ f.label
  | finalSuperclass f => f.label ++ " is final and cannot be extended"
  | interfaceAsSuperclass f => f.label ++ " is an interface and cannot be used as a superclass"
  | classAsInterface f => f.label ++ " is a class and cannot be implemented"

end HierarchyError

/-- One class or interface. Only the root and interfaces have no superclass. -/
structure ClassNode where
  name : Name
  superclass : Option Frame
  interfaces : List Frame
  isInterface : Bool
  isFinal : Bool
deriving DecidableEq

namespace ClassNode

def parents (n : ClassNode) : List Frame := n.superclass.toList ++ n.interfaces

end ClassNode

/-- Classes and interfaces in the order in which they were added, the root first. -/
structure Hierarchy where
  nodes : Array ClassNode
deriving DecidableEq

namespace Hierarchy

def withRoot (name : Name) : Hierarchy := ⟨#[⟨name, none, [], false, false⟩]⟩

/-- The frame that everything inherits from. -/
def root : Frame := ⟨0⟩

def node? (h : Hierarchy) (f : Frame) : Option ClassNode := h.nodes[f.index]?

def knows (h : Hierarchy) (f : Frame) : Bool := (h.node? f).isSome

def frameOf? (h : Hierarchy) (name : Name) : Option Frame :=
  (h.nodes.findIdx? (·.name = name)).map Frame.mk

def nameOf? (h : Hierarchy) (f : Frame) : Option Name := (h.node? f).map (·.name)

def isFinal (h : Hierarchy) (f : Frame) : Bool := (h.node? f).any (·.isFinal)

def isInterface (h : Hierarchy) (f : Frame) : Bool := (h.node? f).any (·.isInterface)

def parents (h : Hierarchy) (f : Frame) : List Frame :=
  match h.node? f with
  | some n => n.parents
  | none => []

def frames (h : Hierarchy) : List Frame := (List.range h.nodes.size).map Frame.mk

/-- Why a frame cannot be a superclass: it must be known, a class, and open to extension. -/
def superclassFault? (h : Hierarchy) (f : Frame) : Option HierarchyError :=
  match h.node? f with
  | none => some (.unknownFrame f)
  | some n =>
    if n.isInterface then some (.interfaceAsSuperclass f)
    else if n.isFinal then some (.finalSuperclass f)
    else none

def interfaceFault? (h : Hierarchy) (f : Frame) : Option HierarchyError :=
  match h.node? f with
  | none => some (.unknownFrame f)
  | some n => if n.isInterface then none else some (.classAsInterface f)

/-- Adds an entry whose parents have been checked, unless its name is taken. -/
def append (h : Hierarchy) (n : ClassNode) : Except HierarchyError Frame × Hierarchy :=
  match h.frameOf? n.name with
  | some _ => (.error (.duplicateClass n.name), h)
  | none => (.ok ⟨h.nodes.size⟩, ⟨h.nodes.push n⟩)

/-- Adds a class; without a superclass it extends the root. The superclass is judged first, then
the interfaces from left to right, then the name. -/
def addClass (h : Hierarchy) (name : Name) (superclass : Option Frame)
    (interfaces : List Frame) (isFinal : Bool) : Except HierarchyError Frame × Hierarchy :=
  let parent := superclass.getD root
  match (h.superclassFault? parent).or (interfaces.findSome? h.interfaceFault?) with
  | some fault => (.error fault, h)
  | none => h.append ⟨name, some parent, interfaces, false, isFinal⟩

def addInterface (h : Hierarchy) (name : Name) (extended : List Frame) :
    Except HierarchyError Frame × Hierarchy :=
  match extended.findSome? h.interfaceFault? with
  | some fault => (.error fault, h)
  | none => h.append ⟨name, none, extended, true, false⟩

end Hierarchy

end ObjectInit
