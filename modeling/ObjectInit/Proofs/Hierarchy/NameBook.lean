import ObjectInit.Data.FiniteMap
import ObjectInit.Proofs.Hierarchy.Additions
import ObjectInit.Proofs.Hierarchy.WellFormed

/-! # A book of names

Instead of searching the entries for a name, one may look it up in a book into which every accepted
entry is written. The two ways agree, whatever is added.
-/

namespace ObjectInit.Hierarchy

variable {h : Hierarchy} {n : ClassNode}

/-! ## Searching -/

theorem frameOf?_withRoot (name other : Name) :
    (withRoot name).frameOf? other = if other = name then some root else none := by
  unfold frameOf? withRoot
  rw [Array.findIdx?_singleton]
  by_cases same : other = name
  · rw [if_pos (decide_eq_true same.symm), if_pos same]
    rfl
  · rw [if_neg (by simpa using Ne.symm same), if_neg same]
    rfl

theorem frameOf?_grow (fresh : h.frameOf? n.name = none) (name : Name) :
    (h.grow n).frameOf? name = if name = n.name then some ⟨h.nodes.size⟩ else h.frameOf? name := by
  unfold frameOf? grow at *
  rw [Array.findIdx?_push]
  by_cases same : name = n.name
  · rw [same, Option.map_eq_none_iff.mp fresh, if_pos (decide_eq_true rfl), if_pos rfl]
    rfl
  · rw [if_neg (by simpa using Ne.symm same), if_neg same, Option.or_none]

/-! ## Two books -/

/-- Entries, and beside them the frame of every name, so that none is searched for. -/
structure Indexed where
  nodes : Array ClassNode
  frames : FiniteMap Name Frame

namespace Indexed

def withRoot (name : Name) : Indexed :=
  ⟨(Hierarchy.withRoot name).nodes, (∅ : FiniteMap Name Frame).insert name root⟩

def entries (b : Indexed) : Hierarchy := ⟨b.nodes⟩

def append (b : Indexed) (n : ClassNode) : Except HierarchyError Frame × Indexed :=
  match b.frames.get? n.name with
  | some _ => (.error (.duplicateClass n.name), b)
  | none => (.ok ⟨b.nodes.size⟩, ⟨b.nodes.push n, b.frames.insert n.name ⟨b.nodes.size⟩⟩)

/-- The answer to an addition. Parents are judged by the entries, names by the book of names. -/
def add (b : Indexed) : Addition → Except HierarchyError Frame × Indexed
  | .ofClass name superclass interfaces isFinal =>
    let parent := superclass.getD root
    match (b.entries.superclassFault? parent).or
        (interfaces.findSome? b.entries.interfaceFault?) with
    | some fault => (.error fault, b)
    | none => b.append ⟨name, some parent, interfaces, false, isFinal⟩
  | .ofInterface name extended =>
    match extended.findSome? b.entries.interfaceFault? with
    | some fault => (.error fault, b)
    | none => b.append ⟨name, none, extended, true, false⟩

def addAll (b : Indexed) (xs : List Addition) : Indexed := xs.foldl (fun b x => (b.add x).2) b

structure Agrees (b : Indexed) (h : Hierarchy) : Prop where
  entries : b.entries = h
  frames (name : Name) : b.frames.get? name = h.frameOf? name

theorem agrees_withRoot (name : Name) : (withRoot name).Agrees (Hierarchy.withRoot name) where
  entries := rfl
  frames other := by
    rw [frameOf?_withRoot]
    unfold withRoot
    by_cases same : other = name
    · rw [if_pos same, same, FiniteMap.get?_insert_self]
    · rw [if_neg same, FiniteMap.get?_insert_of_ne same]
      rfl

variable {b : Indexed}

theorem Agrees.append (agrees : b.Agrees h) (n : ClassNode) :
    (b.append n).1 = (h.append n).1 ∧ (b.append n).2.Agrees (h.append n).2 := by
  obtain rfl := agrees.entries
  unfold Indexed.append Hierarchy.append
  rw [agrees.frames]
  cases fresh : b.entries.frameOf? n.name with
  | some f => exact ⟨rfl, agrees⟩
  | none =>
      refine ⟨rfl, rfl, fun name => ?_⟩
      have searched := frameOf?_grow fresh name
      by_cases same : name = n.name
      · rw [if_pos same] at searched
        rw [same, FiniteMap.get?_insert_self, ← same]
        exact searched.symm
      · rw [if_neg same] at searched
        rw [FiniteMap.get?_insert_of_ne same, agrees.frames]
        exact searched.symm

theorem Agrees.add (agrees : b.Agrees h) (x : Addition) :
    (b.add x).1 = (h.add x).1 ∧ (b.add x).2.Agrees (h.add x).2 := by
  obtain rfl := agrees.entries
  cases x with
  | ofClass name superclass interfaces isFinal =>
      unfold Indexed.add Hierarchy.add addClass
      dsimp only
      cases (b.entries.superclassFault? (superclass.getD root)).or
          (interfaces.findSome? b.entries.interfaceFault?) with
      | some fault => exact ⟨rfl, agrees⟩
      | none => exact agrees.append _
  | ofInterface name extended =>
      unfold Indexed.add Hierarchy.add addInterface
      dsimp only
      cases extended.findSome? b.entries.interfaceFault? with
      | some fault => exact ⟨rfl, agrees⟩
      | none => exact agrees.append _

theorem Agrees.addAll (agrees : b.Agrees h) (xs : List Addition) :
    (b.addAll xs).Agrees (h.addAll xs) := by
  induction xs generalizing b h with
  | nil => exact agrees
  | cons x xs ih => exact ih (agrees.add x).2

end Indexed

/-- With the book of names, every addition to a root has the same answer as without it, and every
name leads to the same frame, which is the one that has the name. -/
theorem names_kept_in_a_book (name : Name) (xs : List Addition) :
    let h := (withRoot name).addAll xs
    let b := (Indexed.withRoot name).addAll xs
    (∀ x, (b.add x).1 = (h.add x).1) ∧ b.entries = h ∧ ∀ other,
      b.frames.get? other = h.frameOf? other ∧
        ∀ f, b.frames.get? other = some f ↔ h.nameOf? f = some other := by
  intro h b
  have agrees : b.Agrees h := (Indexed.agrees_withRoot name).addAll xs
  have reachable : h.Reachable := reachable_iff.mpr ⟨name, xs, rfl⟩
  refine ⟨fun x => (agrees.add x).1, agrees.entries, fun other => ?_⟩
  refine ⟨agrees.frames other, fun f => ?_⟩
  rw [agrees.frames]
  exact reachable.namesApart.frameOf?_eq_some_iff

end ObjectInit.Hierarchy
