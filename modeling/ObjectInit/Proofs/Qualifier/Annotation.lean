import ObjectInit.Proofs.Hierarchy.WellFormed
import ObjectInit.Proofs.NameTable.Bijection
import ObjectInit.Qualifier.Annotation

/-! # Annotations tell qualifiers apart

The four forms differ in their fourth character, whatever text stands for a class. A class is known
by its text since no two entries of a hierarchy have the same name and no two positions of a table
hold the same text.
-/

namespace ObjectInit

variable {h : Hierarchy} {t : NameTable}

/-! ## Texts of names -/

theorem NameTable.resolve_injective (distinct : t.texts.toList.Nodup) {m n : Name}
    (hm : m.index < t.size) (hn : n.index < t.size) (same : t.resolve m = t.resolve n) : m = n := by
  unfold size at hm hn
  rw [← Array.length_toList] at hm hn
  rw [resolve_eq, resolve_eq, List.getElem?_eq_getElem hm, List.getElem?_eq_getElem hn,
    Option.getD_some, Option.getD_some, distinct.getElem_inj_iff] at same
  cases m
  cases n
  exact congrArg Name.mk same

/-! ## Texts of classes -/

namespace Hierarchy

/-- Every name of the hierarchy, that of the root included, is the name of a text of the table. -/
def NamedIn (h : Hierarchy) (t : NameTable) : Prop :=
  ∀ n ∈ h.nodes.toList, ∃ s ∈ t.texts.toList, t.find? s = some n.name

instance : Decidable (h.NamedIn t) :=
  inferInstanceAs (Decidable (∀ n ∈ h.nodes.toList, ∃ s ∈ t.texts.toList, t.find? s = some n.name))

theorem NamedIn.exists_find? (named : h.NamedIn t) {f : Frame} {name : Name}
    (hf : h.nameOf? f = some name) : ∃ s, t.find? s = some name := by
  obtain ⟨n, hn, rfl⟩ := nameOf?_eq_some_iff.mp hf
  obtain ⟨s, -, found⟩ := named n (Array.mem_toList_iff.mpr (Array.mem_of_getElem? hn))
  exact ⟨s, found⟩

theorem frameText_of_nameOf? {f : Frame} {name : Name} (hf : h.nameOf? f = some name) :
    h.frameText t f = t.resolve name := by
  unfold frameText
  rw [hf]

theorem exists_nameOf?_of_knows {f : Frame} (known : h.knows f = true) :
    ∃ name, h.nameOf? f = some name := by
  obtain ⟨n, hn⟩ := Option.isSome_iff_exists.mp known
  exact ⟨n.name, nameOf?_eq_some_iff.mpr ⟨n, hn, rfl⟩⟩

theorem frameText_injective (reachable : h.Reachable) (distinct : t.texts.toList.Nodup)
    (named : h.NamedIn t) {f g : Frame} (hf : h.knows f = true) (hg : h.knows g = true)
    (same : h.frameText t f = h.frameText t g) : f = g := by
  obtain ⟨m, hm⟩ := exists_nameOf?_of_knows hf
  obtain ⟨n, hn⟩ := exists_nameOf?_of_knows hg
  obtain ⟨_, foundM⟩ := named.exists_find? hm
  obtain ⟨_, foundN⟩ := named.exists_find? hn
  rw [frameText_of_nameOf? hm, frameText_of_nameOf? hn] at same
  have names : m = n := NameTable.resolve_injective distinct (NameTable.index_lt_size foundM)
    (NameTable.index_lt_size foundN) same
  rw [← names] at hn
  exact reachable.namesApart f g m hm hn

end Hierarchy

/-! ## Forms -/

/-- The fourth character of an annotation. -/
def QualifierKind.letter : QualifierKind → Char
  | bottom => 'C'
  | under => 'd'
  | initialized => 'i'
  | unknown => 'k'

namespace Qualifier

variable {a b : Qualifier}

theorem getElem?_annotation (h : Hierarchy) (t : NameTable) (q : Qualifier) :
    (String.toList <| q.annotation h t)[3]? = some q.kind.letter := by
  unfold annotation
  cases q <;> simp [kind, QualifierKind.letter]

theorem kind_eq_of_annotation_eq (same : a.annotation h t = b.annotation h t) :
    a.kind = b.kind := by
  have letters : some a.kind.letter = some b.kind.letter := by
    rw [← getElem?_annotation h t a, same, getElem?_annotation]
  revert letters
  cases a.kind <;> cases b.kind <;> simp [QualifierKind.letter]

theorem frameText_eq_of_annotation_eq {f g : Frame} (hf : f ∈ a.frame?) (hg : g ∈ b.frame?)
    (same : a.annotation h t = b.annotation h t) : h.frameText t f = h.frameText t g := by
  have kinds := kind_eq_of_annotation_eq same
  unfold annotation at same
  cases a <;> cases hf <;> cases b <;> cases hg <;> simp only [kind, reduceCtorEq] at kinds
  all_goals simpa using same

/-- Whatever texts a table was given, and whatever hierarchy was made of their names: qualifiers of
its classes have the same annotation only if they are the same. -/
theorem annotation_eq_iff_of_known {start : NameTable}
    (made : start = NameTable.withEmptyName ∨ start = NameTable.bare) (texts : List String)
    (reachable : h.Reachable) (named : h.NamedIn (start.internAll texts))
    (ha : ∀ f ∈ a.frame?, h.knows f = true) (hb : ∀ f ∈ b.frame?, h.knows f = true) :
    a.annotation h (start.internAll texts) = b.annotation h (start.internAll texts) ↔ a = b := by
  have distinct : (start.internAll texts).texts.toList.Nodup := by
    obtain rfl | rfl := made <;> exact NameTable.nodup_internAll rfl texts
  refine ⟨fun same => ?_, congrArg _⟩
  have kinds := kind_eq_of_annotation_eq same
  have frames {f g : Frame} (hf : f ∈ a.frame?) (hg : g ∈ b.frame?) : f = g :=
    Hierarchy.frameText_injective reachable distinct named (ha f hf) (hb g hg)
      (frameText_eq_of_annotation_eq hf hg same)
  cases a <;> cases b <;> simp only [kind, reduceCtorEq] at kinds ⊢
  case under.under f g => rw [frames rfl rfl]
  case unknown.unknown f g => rw [frames rfl rfl]

/-- The root has the empty name, and parentheses in the names of two other classes look like those
of the form. -/
theorem annotation_eq_iff_of_known_of_odd_names :
    let texts := ["", ")", "A", "(A)"]
    let t := NameTable.bare.internAll texts
    let h := (((Hierarchy.withRoot ⟨0⟩).addClass ⟨1⟩ none [] false).2.addInterface ⟨3⟩ []).2
    h.Reachable ∧ h.NamedIn t ∧ (∀ f ∈ (under ⟨1⟩).frame?, h.knows f = true) ∧
      (∀ f ∈ (under ⟨2⟩).frame?, h.knows f = true) ∧
      annotation h t (under Hierarchy.root) = "@UnderInitialization()" ∧
      annotation h t (under ⟨1⟩) = "@UnderInitialization())" ∧
      annotation h t (under ⟨1⟩) ≠ annotation h t (under ⟨2⟩) := by
  intro texts t h
  have reachable : h.Reachable := .addInterface _ _ (.addClass _ _ _ _ (.withRoot _))
  have named : h.NamedIn t := by decide +kernel
  have known : ∀ f ∈ (under ⟨1⟩).frame?, h.knows f = true := by decide +kernel
  have known' : ∀ f ∈ (under ⟨2⟩).frame?, h.knows f = true := by decide +kernel
  refine ⟨reachable, named, known, known', by decide +kernel, by decide +kernel, ?_⟩
  rw [Ne, annotation_eq_iff_of_known (.inr rfl) texts reachable named known known']
  decide

end Qualifier

end ObjectInit
