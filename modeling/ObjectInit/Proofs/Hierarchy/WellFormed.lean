import ObjectInit.Proofs.Hierarchy.Order

/-! # The shape of every hierarchy

An addition is judged by the new entry and the entries it names. What these judgements leave true of
the whole graph: nothing inherits from a final class, and the root is the only class above an
interface.
-/

namespace ObjectInit.Hierarchy

variable {h : Hierarchy}

/-! ## Names -/

theorem nameOf?_eq_some_iff {name : Name} {f : Frame} :
    h.nameOf? f = some name ↔ ∃ n, h.node? f = some n ∧ n.name = name :=
  Option.map_eq_some_iff

theorem frameOf?_eq_none_iff {name : Name} :
    h.frameOf? name = none ↔ ∀ f, h.nameOf? f ≠ some name := by
  unfold frameOf?
  rw [Option.map_eq_none_iff, Array.findIdx?_eq_none_iff]
  constructor
  · intro absent f hf
    obtain ⟨n, hn, hname⟩ := nameOf?_eq_some_iff.mp hf
    have hne := absent n (Array.mem_of_getElem? hn)
    simp [hname] at hne
  · intro absent n hn
    obtain ⟨i, hi⟩ := Array.getElem?_of_mem hn
    have hne := absent ⟨i⟩
    rw [Ne, nameOf?_eq_some_iff] at hne
    simpa using fun hname => hne ⟨n, hi, hname⟩

theorem nameOf?_of_frameOf? {name : Name} {f : Frame} (hf : h.frameOf? name = some f) :
    h.nameOf? f = some name := by
  obtain ⟨i, hi, rfl⟩ := Option.map_eq_some_iff.mp hf
  obtain ⟨hlt, hname, -⟩ := Array.findIdx?_eq_some_iff_getElem.mp hi
  exact nameOf?_eq_some_iff.mpr ⟨_, Array.getElem?_eq_getElem hlt, by simpa using hname⟩

def NamesApart (h : Hierarchy) : Prop :=
  ∀ f g name, h.nameOf? f = some name → h.nameOf? g = some name → f = g

namespace NamesApart

theorem withRoot (name : Name) : (withRoot name).NamesApart := by
  intro f g _ hf hg
  obtain ⟨n, hn, -⟩ := nameOf?_eq_some_iff.mp hf
  obtain ⟨k, hk, -⟩ := nameOf?_eq_some_iff.mp hg
  rw [(eq_of_node?_withRoot hn).1, (eq_of_node?_withRoot hk).1]

theorem grow {n : ClassNode} (hh : h.NamesApart) (hn : h.Admits n) : (h.grow n).NamesApart := by
  have fresh := frameOf?_eq_none_iff.mp hn.fresh
  have hname : ∀ f, (h.grow n).nameOf? f =
      if f.index = h.nodes.size then some n.name else h.nameOf? f := by
    intro f
    unfold nameOf?
    rw [node?_grow]
    split <;> rfl
  intro f g name hf hg
  rw [hname] at hf hg
  by_cases hfnew : f.index = h.nodes.size <;> by_cases hgnew : g.index = h.nodes.size
  · exact congrArg Frame.mk (hfnew.trans hgnew.symm)
  · rw [if_pos hfnew] at hf
    rw [if_neg hgnew, ← hf] at hg
    exact absurd hg (fresh g)
  · rw [if_pos hgnew] at hg
    rw [if_neg hfnew, ← hg] at hf
    exact absurd hf (fresh f)
  · rw [if_neg hfnew] at hf
    rw [if_neg hgnew] at hg
    exact hh f g name hf hg

theorem frameOf?_eq_some_iff (hh : h.NamesApart) {name : Name} {f : Frame} :
    h.frameOf? name = some f ↔ h.nameOf? f = some name := by
  refine ⟨nameOf?_of_frameOf?, fun hf => ?_⟩
  cases hg : h.frameOf? name with
  | none => exact absurd hf (frameOf?_eq_none_iff.mp hg f)
  | some g => rw [hh f g name hf (nameOf?_of_frameOf? hg)]

end NamesApart

theorem Reachable.namesApart (hr : h.Reachable) : h.NamesApart :=
  hr.invariant NamesApart.withRoot fun _ _ => NamesApart.grow

/-! ## Open entries -/

/-- Every class but the root has a superclass, superclasses are open classes, and no interface is
final. -/
structure Extensible (h : Hierarchy) : Prop where
  exists_superclass {f : Frame} {n : ClassNode} :
    h.node? f = some n → n.isInterface = false → f ≠ root → ∃ p, n.superclass = some p
  superclass {f p : Frame} {n : ClassNode} :
    h.node? f = some n → n.superclass = some p → h.superclassFault? p = none
  interface {f : Frame} {n : ClassNode} :
    h.node? f = some n → n.isInterface = true → n.isFinal = false

theorem superclassFault?_grow (n : ClassNode) {p : Frame} (hp : h.superclassFault? p = none) :
    (h.grow n).superclassFault? p = none := by
  obtain ⟨k, hk, openClass⟩ := superclassFault?_eq_none_iff.mp hp
  exact superclassFault?_eq_none_iff.mpr ⟨k, node?_grow_of_node? n hk, openClass⟩

namespace Extensible

theorem withRoot (name : Name) : (withRoot name).Extensible := by
  refine ⟨fun hn _ hf => ?_, fun hn hp => ?_, fun hn hi => ?_⟩
  · exact absurd (eq_of_node?_withRoot hn).1 hf
  · rw [(eq_of_node?_withRoot hn).2] at hp
    cases hp
  · rw [(eq_of_node?_withRoot hn).2]

theorem grow {n : ClassNode} (hh : h.Extensible) (hn : h.Admits n) : (h.grow n).Extensible := by
  refine ⟨fun {f k} hk hclass hf => ?_, fun {f p k} hk hp => ?_, fun {f k} hk hi => ?_⟩ <;>
    rw [node?_grow] at hk <;> split at hk
  · cases hk
    rcases hn.shape with ⟨-, p, hp, -⟩ | ⟨hi, -⟩
    · exact ⟨p, hp⟩
    · rw [hclass] at hi
      cases hi
  · exact hh.exists_superclass hk hclass hf
  · cases hk
    apply superclassFault?_grow
    rcases hn.shape with ⟨-, q, hq, hfault⟩ | ⟨-, -, hq⟩
    · rw [Option.some.inj (hp.symm.trans hq)]
      exact hfault
    · rw [hq] at hp
      cases hp
  · exact superclassFault?_grow n (hh.superclass hk hp)
  · cases hk
    rcases hn.shape with ⟨hclass, -⟩ | ⟨-, hfinal, -⟩
    · rw [hi] at hclass
      cases hclass
    · exact hfinal
  · exact hh.interface hk hi

end Extensible

theorem Reachable.extensible (hr : h.Reachable) : h.Extensible :=
  hr.invariant Extensible.withRoot fun _ _ => Extensible.grow

theorem Reachable.isFinal_parent (hr : h.Reachable) {f p : Frame} (parent : p ∈ h.parents f) :
    h.isFinal p = false := by
  obtain ⟨n, hn, hsuper | hinterface⟩ := mem_parents_iff.mp parent
  · obtain ⟨k, hk, -, hopen⟩ :=
      superclassFault?_eq_none_iff.mp (hr.extensible.superclass hn hsuper)
    rw [isFinal_of_node? hk, hopen]
  · obtain ⟨k, hk, hi⟩ := isInterface_iff.mp (hr.kinded.interfaces hn hinterface)
    rw [isFinal_of_node? hk, hr.extensible.interface hk hi]

/-! ## The whole graph -/

theorem Reachable.eq_of_inherits_final (hr : h.Reachable) {n : Nat} {f g : Frame}
    (path : h.Inherits n f g) (final : h.isFinal g = true) : f = g := by
  induction path with
  | refl f => rfl
  | @step n f p g parent rest ih =>
      -- The rest of the path has no edge, so the first edge ends at the final class.
      have hopen := hr.isFinal_parent parent
      rw [ih final, final] at hopen
      cases hopen

theorem Reachable.eq_of_isSubtype_final (hr : h.Reachable) {f g : Frame}
    (hfg : h.isSubtype f g = true) (final : h.isFinal g = true) : f = g := by
  obtain ⟨-, -, rfl | ⟨n, -, path⟩⟩ := isSubtype_iff.mp hfg
  · obtain ⟨name, hroot⟩ := hr.node?_root
    rw [isFinal_of_node? hroot] at final
    cases final
  · exact hr.eq_of_inherits_final path final

/-- The root is an open class without parents, whatever an entry inherits from is there before it,
and frames and names answer to each other. -/
structure WellFormed (h : Hierarchy) : Prop where
  root : ∃ n, h.node? root = some n ∧ n.isInterface = false ∧ n.isFinal = false ∧
    n.superclass = none ∧ n.interfaces = []
  superclass {f : Frame} {n : ClassNode} :
    h.node? f = some n → n.isInterface = false → f ≠ Hierarchy.root →
      ∃ p k, n.superclass = some p ∧ p.index < f.index ∧
        h.node? p = some k ∧ k.isInterface = false ∧ k.isFinal = false
  interfaces {f g : Frame} {n : ClassNode} :
    h.node? f = some n → g ∈ n.interfaces →
      ∃ k, g.index < f.index ∧ h.node? g = some k ∧ k.isInterface = true
  interface {f : Frame} {n : ClassNode} :
    h.node? f = some n → n.isInterface = true → n.superclass = none
  frameOf?_eq_some_iff {name : Name} {f : Frame} :
    h.frameOf? name = some f ↔ h.nameOf? f = some name

theorem Reachable.wellFormed (hr : h.Reachable) : h.WellFormed where
  root := by
    obtain ⟨name, hn⟩ := hr.node?_root
    exact ⟨_, hn, rfl, rfl, rfl, rfl⟩
  superclass {f n} hn hclass hf := by
    obtain ⟨p, hp⟩ := hr.extensible.exists_superclass hn hclass hf
    obtain ⟨k, hk, openClass⟩ :=
      superclassFault?_eq_none_iff.mp (hr.extensible.superclass hn hp)
    have parent : p ∈ h.parents f := mem_parents_iff.mpr ⟨n, hn, .inl hp⟩
    exact ⟨p, k, hp, hr.parentsFirst f p parent, hk, openClass⟩
  interfaces {f g n} hn hg := by
    obtain ⟨k, hk, hi⟩ := isInterface_iff.mp (hr.kinded.interfaces hn hg)
    have parent : g ∈ h.parents f := mem_parents_iff.mpr ⟨n, hn, .inr hg⟩
    exact ⟨k, hr.parentsFirst f g parent, hk, hi⟩
  interface hn hi := hr.kinded.superclass hn hi
  frameOf?_eq_some_iff := hr.namesApart.frameOf?_eq_some_iff

/-- Every hierarchy has the shape that its additions check for. Hence no two frames are below each
other, every known frame is below itself and the root, only a final class itself is below it, and
an interface is below no class but the root. -/
theorem Reachable.wellFormed_and_ordered (hr : h.Reachable) :
    h.WellFormed ∧
      (∀ a b, h.isSubtype a b = true → h.isSubtype b a = true → a = b) ∧
      (∀ a, h.knows a = true → h.isSubtype a a = true ∧ h.isSubtype a Hierarchy.root = true) ∧
      (∀ a b, h.isFinal b = true → h.isSubtype a b = true → a = b) ∧
      ∀ a b, h.isInterface a = true → h.isInterface b = false → h.isSubtype a b = true →
        b = Hierarchy.root := by
  refine ⟨hr.wellFormed, ?antisymm, ?bounds, ?final, ?interface⟩
  case antisymm => exact fun a b => hr.parentsFirst.isSubtype_antisymm
  case bounds => exact fun a known => ⟨isSubtype_refl known, hr.isSubtype_root known⟩
  case final => exact fun a b final hab => hr.eq_of_isSubtype_final hab final
  case interface => exact fun a b ha hb hab => hr.eq_root_of_isInterface hab ha hb

/-- An interface, a class that implements it and a final class that extends the class. What would
extend the final class or take its name is refused. -/
def sealedPair : Hierarchy :=
  let classes := (((withRoot ⟨0⟩).addInterface ⟨1⟩ []).2.addClass ⟨2⟩ none [⟨1⟩] false).2
  let classes := (classes.addClass ⟨3⟩ (some ⟨2⟩) [] true).2
  ((classes.addClass ⟨4⟩ (some ⟨3⟩) [] false).2.addInterface ⟨3⟩ [⟨1⟩]).2

theorem sealedPair_reachable : sealedPair.Reachable :=
  .addInterface _ _ (.addClass _ _ _ _ (.addClass _ _ _ _ (.addClass _ _ _ _
    (.addInterface _ _ (.withRoot _)))))

theorem wellFormed_and_ordered_of_sealedPair :
    sealedPair.Reachable ∧ sealedPair.nodes.size = 4 ∧
      (sealedPair.frameOf? ⟨3⟩ = some ⟨3⟩ ∧ sealedPair.frameOf? ⟨4⟩ = none) ∧
      (∃ p k, p.index < 3 ∧ sealedPair.node? p = some k ∧ k.isFinal = false) ∧
      (sealedPair.isSubtype ⟨3⟩ ⟨1⟩ = true ∧ sealedPair.isSubtype ⟨3⟩ root = true) ∧
      (∀ a, sealedPair.isSubtype a ⟨3⟩ = true → a = ⟨3⟩) ∧
      ∀ b, sealedPair.isInterface b = false → sealedPair.isSubtype ⟨1⟩ b = true → b = root := by
  obtain ⟨shape, -, bounds, final, interface⟩ := sealedPair_reachable.wellFormed_and_ordered
  have named : sealedPair.frameOf? ⟨3⟩ = some ⟨3⟩ :=
    shape.frameOf?_eq_some_iff.mpr (by decide +kernel)
  obtain ⟨p, k, -, hlt, hk, -, hopen⟩ :=
    shape.superclass (f := ⟨3⟩) (n := ⟨⟨3⟩, some ⟨2⟩, [], false, true⟩) (by decide +kernel) rfl
      (by decide)
  exact ⟨sealedPair_reachable, by decide +kernel, ⟨named, by decide +kernel⟩,
    ⟨p, k, hlt, hk, hopen⟩, ⟨by decide +kernel, (bounds ⟨3⟩ (by decide +kernel)).2⟩,
    fun a => final a ⟨3⟩ (by decide +kernel), fun b => interface ⟨1⟩ b (by decide +kernel)⟩

end ObjectInit.Hierarchy
