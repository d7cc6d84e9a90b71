import ObjectInit.Hierarchy.Bounds

/-! # How hierarchies grow

An accepted addition puts one entry at the end, whose parents are there already; a refused one
changes nothing. Whatever such steps preserve holds of every hierarchy.
-/

namespace ObjectInit.Hierarchy

/-- The hierarchies that a root and any additions lead to, the refused ones included. -/
inductive Reachable : Hierarchy → Prop
  | withRoot (name : Name) : Reachable (withRoot name)
  | addClass {h : Hierarchy} (name : Name) (superclass : Option Frame) (interfaces : List Frame)
      (isFinal : Bool) : Reachable h → Reachable (h.addClass name superclass interfaces isFinal).2
  | addInterface {h : Hierarchy} (name : Name) (extended : List Frame) :
      Reachable h → Reachable (h.addInterface name extended).2

def grow (h : Hierarchy) (n : ClassNode) : Hierarchy := ⟨h.nodes.push n⟩

structure Admits (h : Hierarchy) (n : ClassNode) : Prop where
  fresh : h.frameOf? n.name = none
  interfaces {f : Frame} : f ∈ n.interfaces → h.interfaceFault? f = none
  shape : (n.isInterface = false ∧ ∃ p, n.superclass = some p ∧ h.superclassFault? p = none) ∨
    (n.isInterface = true ∧ n.isFinal = false ∧ n.superclass = none)

/-! ## Entries -/

theorem lt_size_of_node? {h : Hierarchy} {f : Frame} {n : ClassNode} (hn : h.node? f = some n) :
    f.index < h.nodes.size := by
  obtain ⟨hlt, _⟩ := Array.getElem?_eq_some_iff.mp hn
  exact hlt

theorem knows_iff {h : Hierarchy} {f : Frame} : h.knows f = true ↔ f.index < h.nodes.size := by
  simp [knows, node?]

theorem mem_parents_iff {h : Hierarchy} {f p : Frame} :
    p ∈ h.parents f ↔ ∃ n, h.node? f = some n ∧ (n.superclass = some p ∨ p ∈ n.interfaces) := by
  unfold parents
  cases h.node? f with
  | none => simp
  | some n => simp [ClassNode.parents]

theorem knows_of_mem_parents {h : Hierarchy} {f p : Frame} (parent : p ∈ h.parents f) :
    h.knows f = true := by
  obtain ⟨n, hn, -⟩ := mem_parents_iff.mp parent
  exact Option.isSome_iff_exists.mpr ⟨n, hn⟩

theorem isInterface_iff {h : Hierarchy} {f : Frame} :
    h.isInterface f = true ↔ ∃ n, h.node? f = some n ∧ n.isInterface = true :=
  Option.any_eq_true ..

theorem isInterface_of_node? {h : Hierarchy} {f : Frame} {n : ClassNode}
    (hn : h.node? f = some n) : h.isInterface f = n.isInterface := by
  unfold isInterface
  rw [hn, Option.any_some]

theorem isFinal_of_node? {h : Hierarchy} {f : Frame} {n : ClassNode}
    (hn : h.node? f = some n) : h.isFinal f = n.isFinal := by
  unfold isFinal
  rw [hn, Option.any_some]

theorem eq_of_node?_withRoot {name : Name} {f : Frame} {n : ClassNode}
    (hn : (withRoot name).node? f = some n) : f = root ∧ n = ⟨name, none, [], false, false⟩ := by
  obtain ⟨hlt, hget⟩ := Array.getElem?_eq_some_iff.mp hn
  have hzero : f.index = 0 := Nat.lt_one_iff.mp hlt
  refine ⟨congrArg Frame.mk hzero, ?_⟩
  simpa [withRoot, hzero] using hget.symm

theorem node?_grow (h : Hierarchy) (n : ClassNode) (f : Frame) :
    (h.grow n).node? f = if f.index = h.nodes.size then some n else h.node? f :=
  Array.getElem?_push

theorem node?_grow_of_node? {h : Hierarchy} (n : ClassNode) {f : Frame} {k : ClassNode}
    (hk : h.node? f = some k) : (h.grow n).node? f = some k := by
  rw [node?_grow, if_neg (Nat.ne_of_lt (lt_size_of_node? hk)), hk]

theorem parents_grow (h : Hierarchy) (n : ClassNode) (f : Frame) :
    (h.grow n).parents f = if f.index = h.nodes.size then n.parents else h.parents f := by
  unfold parents
  rw [node?_grow]
  by_cases hf : f.index = h.nodes.size
  · rw [if_pos hf, if_pos hf]
  · rw [if_neg hf, if_neg hf]

theorem superclassFault?_eq_none_iff {h : Hierarchy} {f : Frame} :
    h.superclassFault? f = none ↔
      ∃ n, h.node? f = some n ∧ n.isInterface = false ∧ n.isFinal = false := by
  unfold superclassFault?
  cases h.node? f with
  | none => simp
  | some n => cases hi : n.isInterface <;> cases hf : n.isFinal <;> simp [hi, hf]

theorem interfaceFault?_eq_none_iff {h : Hierarchy} {f : Frame} :
    h.interfaceFault? f = none ↔ ∃ n, h.node? f = some n ∧ n.isInterface = true := by
  unfold interfaceFault?
  cases h.node? f with
  | none => simp
  | some n => cases hi : n.isInterface <;> simp [hi]

theorem supertypeOrRoot_cases (h : Hierarchy) (f : Frame) :
    h.oracle.supertypeOrRoot f = root ∨ h.oracle.supertypeOrRoot f ∈ h.parents f := by
  show (h.directSupertype? f).getD root = root ∨ (h.directSupertype? f).getD root ∈ h.parents f
  unfold directSupertype?
  cases hn : h.node? f with
  | none => exact .inl rfl
  | some n =>
      cases hi : n.isInterface with
      | true => exact .inl (by simp [hi])
      | false =>
          cases hp : n.superclass with
          | none => exact .inl (by simp [hi, hp])
          | some p =>
              have parent : p ∈ h.parents f := mem_parents_iff.mpr ⟨n, hn, .inl hp⟩
              exact .inr (by simpa [hi, hp] using parent)

namespace Admits

variable {h : Hierarchy} {n : ClassNode}

theorem knows_of_mem_parents (hn : h.Admits n) {p : Frame} (hp : p ∈ n.parents) :
    ∃ k, h.node? p = some k := by
  unfold ClassNode.parents at hp
  rw [List.mem_append] at hp
  cases hp with
  | inl hsuper =>
      obtain ⟨-, q, hq, hfault⟩ | ⟨-, -, hq⟩ := hn.shape
      · rw [hq, Option.toList_some, List.mem_singleton] at hsuper
        subst hsuper
        obtain ⟨k, hk, -⟩ := superclassFault?_eq_none_iff.mp hfault
        exact ⟨k, hk⟩
      · rw [hq] at hsuper
        cases hsuper
  | inr hinterface =>
      obtain ⟨k, hk, -⟩ := interfaceFault?_eq_none_iff.mp (hn.interfaces hinterface)
      exact ⟨k, hk⟩

end Admits

/-! ## Additions -/

theorem append_cases (h : Hierarchy) (n : ClassNode) :
    (∃ e, h.append n = (.error e, h)) ∨
      (h.frameOf? n.name = none ∧ h.append n = (.ok ⟨h.nodes.size⟩, h.grow n)) := by
  unfold append
  cases hn : h.frameOf? n.name with
  | some f => exact .inl ⟨_, rfl⟩
  | none => exact .inr ⟨rfl, rfl⟩

theorem addClass_cases (h : Hierarchy) (name : Name) (superclass : Option Frame)
    (interfaces : List Frame) (isFinal : Bool) :
    (∃ e, h.addClass name superclass interfaces isFinal = (.error e, h)) ∨
      h.Admits ⟨name, some (superclass.getD root), interfaces, false, isFinal⟩ ∧
        h.addClass name superclass interfaces isFinal = (.ok ⟨h.nodes.size⟩,
          h.grow ⟨name, some (superclass.getD root), interfaces, false, isFinal⟩) := by
  cases hfault : (h.superclassFault? (superclass.getD root)).or
      (interfaces.findSome? h.interfaceFault?) with
  | some e => exact .inl ⟨e, by simp only [addClass, hfault]⟩
  | none =>
      obtain ⟨hsuper, hinterfaces⟩ := Option.or_eq_none_iff.mp hfault
      have hadd : h.addClass name superclass interfaces isFinal =
          h.append ⟨name, some (superclass.getD root), interfaces, false, isFinal⟩ := by
        simp only [addClass, hfault]
      rw [hadd]
      obtain ⟨e, he⟩ | ⟨hfresh, hn⟩ := h.append_cases
        ⟨name, some (superclass.getD root), interfaces, false, isFinal⟩
      · exact .inl ⟨e, he⟩
      · refine .inr ⟨⟨hfresh, ?_, .inl ⟨rfl, _, rfl, hsuper⟩⟩, hn⟩
        intro f hf
        exact List.findSome?_eq_none_iff.mp hinterfaces f hf

theorem addInterface_cases (h : Hierarchy) (name : Name) (extended : List Frame) :
    (∃ e, h.addInterface name extended = (.error e, h)) ∨
      h.Admits ⟨name, none, extended, true, false⟩ ∧
        h.addInterface name extended =
          (.ok ⟨h.nodes.size⟩, h.grow ⟨name, none, extended, true, false⟩) := by
  cases hinterfaces : extended.findSome? h.interfaceFault? with
  | some e => exact .inl ⟨e, by simp only [addInterface, hinterfaces]⟩
  | none =>
      have hadd : h.addInterface name extended = h.append ⟨name, none, extended, true, false⟩ := by
        simp only [addInterface, hinterfaces]
      rw [hadd]
      obtain ⟨e, he⟩ | ⟨hfresh, hn⟩ := h.append_cases ⟨name, none, extended, true, false⟩
      · exact .inl ⟨e, he⟩
      · refine .inr ⟨⟨hfresh, ?_, .inr ⟨rfl, rfl, rfl⟩⟩, hn⟩
        intro f hf
        exact List.findSome?_eq_none_iff.mp hinterfaces f hf

/-! ## Every hierarchy -/

namespace Reachable

/-- What the root alone satisfies and accepted entries preserve holds of every hierarchy. -/
theorem invariant {P : Hierarchy → Prop} (start : ∀ name, P (Hierarchy.withRoot name))
    (step : ∀ h n, P h → h.Admits n → P (h.grow n)) {h : Hierarchy} (hr : h.Reachable) : P h := by
  induction hr with
  | withRoot name => exact start name
  | addClass name superclass interfaces isFinal _ ih =>
      obtain ⟨e, he⟩ | ⟨hn, he⟩ := addClass_cases _ name superclass interfaces isFinal
      · rw [he]
        exact ih
      · rw [he]
        exact step _ _ ih hn
  | addInterface name extended _ ih =>
      obtain ⟨e, he⟩ | ⟨hn, he⟩ := addInterface_cases _ name extended
      · rw [he]
        exact ih
      · rw [he]
        exact step _ _ ih hn

end Reachable

/-! ## Parents come first -/

def ParentsFirst (h : Hierarchy) : Prop := ∀ f, ∀ p ∈ h.parents f, p.index < f.index

namespace ParentsFirst

theorem knows_parent {h : Hierarchy} (hh : h.ParentsFirst) {f p : Frame}
    (parent : p ∈ h.parents f) : h.knows p = true := by
  have hf := knows_iff.mp (knows_of_mem_parents parent)
  exact knows_iff.mpr (Nat.lt_trans (hh f p parent) hf)

theorem withRoot (name : Name) : (withRoot name).ParentsFirst := by
  intro f p hp
  cases hn : (Hierarchy.withRoot name).node? f with
  | none => simp [parents, hn] at hp
  | some n =>
      obtain ⟨rfl, -⟩ := eq_of_node?_withRoot hn
      cases hp

theorem grow {h : Hierarchy} {n : ClassNode} (hh : h.ParentsFirst) (hn : h.Admits n) :
    (h.grow n).ParentsFirst := by
  intro f p hp
  rw [parents_grow] at hp
  split at hp
  · rename_i hf
    -- The new entry is the last one, and its parents were there before it.
    obtain ⟨k, hk⟩ := hn.knows_of_mem_parents hp
    rw [hf]
    exact lt_size_of_node? hk
  · exact hh f p hp

theorem supertypeOrRoot_lt {h : Hierarchy} (hh : h.ParentsFirst) {f : Frame} (hf : f ≠ root) :
    (h.oracle.supertypeOrRoot f).index < f.index := by
  rcases h.supertypeOrRoot_cases f with heq | parent
  · rw [heq]
    apply Nat.pos_of_ne_zero
    intro hzero
    exact hf (congrArg Frame.mk hzero)
  · exact hh f _ parent

end ParentsFirst

theorem Reachable.parentsFirst {h : Hierarchy} (hr : h.Reachable) : h.ParentsFirst :=
  hr.invariant ParentsFirst.withRoot fun _ _ => ParentsFirst.grow

end ObjectInit.Hierarchy
