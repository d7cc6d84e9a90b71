import ObjectInit.Proofs.Hierarchy.Additions
import ObjectInit.Proofs.Qualifier.Hierarchy

/-! # Answers that additions keep

What is asked about known frames is answered after any additions as it was before them. Lower bounds
are the one exception.
-/

namespace ObjectInit

/-! ## Oracles that agree -/

/-- From frames with the property up, the second oracle answers as the first. -/
structure TypeOracle.AgreesOn (p : Frame → Prop) (o o' : TypeOracle) : Prop where
  isSubtype {a : Frame} : p a → ∀ b, o'.isSubtype a b = o.isSubtype a b
  lub? {a b : Frame} : p a → p b → o'.lub? a b = o.lub? a b
  root : o'.root = o.root

namespace TypeOracle.AgreesOn

variable {p : Frame → Prop} {o o' : TypeOracle} (agrees : AgreesOn p o o')

include agrees

theorem frameLe_eq {a : Frame} (ha : p a) (b : Frame) : o'.frameLe a b = o.frameLe a b := by
  unfold frameLe
  rw [agrees.isSubtype ha]

theorem frameLub_eq {a b : Frame} (ha : p a) (hb : p b) : o'.frameLub a b = o.frameLub a b := by
  unfold frameLub
  simp only [agrees.frameLe_eq ha, agrees.frameLe_eq hb, agrees.lub? ha hb, agrees.root]

theorem le_eq {a : Qualifier} (ha : ∀ f ∈ a.frame?, p f) (b : Qualifier) :
    Qualifier.le o' a b = Qualifier.le o a b := by
  cases a <;> cases b <;> simp only [Qualifier.le]
  all_goals exact agrees.frameLe_eq (ha _ rfl) _

theorem lub_eq {a b : Qualifier} (ha : ∀ f ∈ a.frame?, p f) (hb : ∀ f ∈ b.frame?, p f) :
    Qualifier.lub o' a b = Qualifier.lub o a b := by
  have hapart : Qualifier.lubApart o' a b = Qualifier.lubApart o a b := by
    cases a <;> cases b <;> simp only [Qualifier.lubApart, Qualifier.top, agrees.root]
    all_goals rw [agrees.frameLub_eq (ha _ rfl) (hb _ rfl)]
  unfold Qualifier.lub
  rw [agrees.le_eq ha, agrees.le_eq hb, hapart]

end TypeOracle.AgreesOn

/-! ## Hierarchies -/

namespace Hierarchy

/-- What is asked about frames of the first hierarchy has the same answer in the second. -/
structure Conserves (h h' : Hierarchy) : Prop where
  isSubtype {a b : Frame} : h.knows a = true → h.knows b = true →
    h'.isSubtype a b = h.isSubtype a b
  lub? {a b : Frame} : h.knows a = true → h.knows b = true → h'.lub? a b = h.lub? a b
  ancestors {a : Frame} : h.knows a = true → h'.ancestors a = h.ancestors a
  directSupertype? {a : Frame} : h.knows a = true → h'.directSupertype? a = h.directSupertype? a
  nameOf? {a : Frame} : h.knows a = true → h'.nameOf? a = h.nameOf? a
  isFinal {a : Frame} : h.knows a = true → h'.isFinal a = h.isFinal a
  isInterface {a : Frame} : h.knows a = true → h'.isInterface a = h.isInterface a
  le {a b : Qualifier} : a.Over h → b.Over h →
    Qualifier.le h'.oracle a b = Qualifier.le h.oracle a b
  lub {a b : Qualifier} : a.Over h → b.Over h →
    Qualifier.lub h'.oracle a b = Qualifier.lub h.oracle a b

variable {h h' : Hierarchy}

theorem Precedes.agreesOn (hp : h.Precedes h') (hr : h.Reachable) :
    TypeOracle.AgreesOn (fun f => h.knows f = true) h.oracle h'.oracle where
  isSubtype := hp.isSubtype_eq hr
  lub? := hp.lub?_eq hr
  root := rfl

theorem Precedes.conserves (hp : h.Precedes h') (hr : h.Reachable) : h.Conserves h' where
  isSubtype ha _ := hp.isSubtype_eq hr ha _
  lub? := hp.lub?_eq hr
  ancestors := hp.ancestors_eq hr
  directSupertype? known := by
    unfold Hierarchy.directSupertype?
    rw [hp.node?_eq known]
  nameOf? known := congrArg _ (hp.node?_eq known)
  isFinal known := congrArg _ (hp.node?_eq known)
  isInterface := hp.isInterface_eq
  le ha _ := (hp.agreesOn hr).le_eq ha _
  lub := (hp.agreesOn hr).lub_eq

theorem Reachable.conserves_addAll (hr : h.Reachable) (xs : List Addition) :
    h.Conserves (h.addAll xs) := (h.precedes_addAll xs).conserves hr

/-- An addition that is refused changes nothing. One that is accepted is told the first number that
no frame has, its entry is the only new one, and answers about the frames before it are kept. -/
theorem Reachable.add_atomic_and_conservative (hr : h.Reachable) (x : Addition) :
    (∀ e, (h.add x).1 = .error e → (h.add x).2 = h) ∧
      ∀ f, (h.add x).1 = .ok f →
        (∀ g, h.knows g = true ↔ g.index < f.index) ∧
          (∀ g, (h.add x).2.knows g = true ↔ g = f ∨ h.knows g = true) ∧
          h.Conserves (h.add x).2 := by
  have conserves := (h.precedes_add x).conserves hr
  rcases h.add_cases x with ⟨e, refused⟩ | ⟨n, -, accepted⟩
  · rw [refused]
    constructor
    · intro e told
      rfl
    · intro f told
      cases told
  · rw [accepted] at conserves ⊢
    constructor
    · intro e told
      cases told
    · intro f told
      cases told
      refine ⟨fun g => knows_iff, fun g => ?_, conserves⟩
      have hindex : g.index = h.nodes.size ↔ g = ⟨h.nodes.size⟩ :=
        ⟨fun same => congrArg Frame.mk same, congrArg Frame.index⟩
      rw [knows_iff, knows_iff, grow, Array.size_push, Nat.lt_succ_iff_lt_or_eq, hindex, or_comm]

def shared : Hierarchy :=
  let interfaces := (((withRoot ⟨0⟩).addInterface ⟨1⟩ []).2.addInterface ⟨2⟩ []).2
  (interfaces.addClass ⟨3⟩ none [⟨1⟩, ⟨2⟩] false).2

theorem shared_reachable : shared.Reachable :=
  .addClass _ _ _ _ (.addInterface _ _ (.addInterface _ _ (.withRoot _)))

/-- A second class that implements both interfaces leaves the first one as it was and their upper
bound too, but takes their lower bound away. One that extends an unknown class is refused. -/
theorem add_atomic_and_conservative_of_shared :
    shared.Reachable ∧
      ((shared.add (.ofClass ⟨4⟩ (some ⟨9⟩) [] false)).1 = .error (.unknownFrame ⟨9⟩) ∧
        (shared.add (.ofClass ⟨4⟩ (some ⟨9⟩) [] false)).2 = shared) ∧
      ∃ h, shared.add (.ofClass ⟨4⟩ none [⟨1⟩, ⟨2⟩] false) = (.ok ⟨4⟩, h) ∧
        (∀ g, shared.knows g = true ↔ g.index < 4) ∧
        (h.ancestors ⟨3⟩ = [⟨0⟩, ⟨1⟩, ⟨2⟩, ⟨3⟩] ∧ h.lub? ⟨1⟩ ⟨2⟩ = some ⟨0⟩) ∧
        Qualifier.lub h.oracle (.under ⟨3⟩) .initialized = .unknown ⟨3⟩ ∧
        Qualifier.glb shared.oracle (.under ⟨1⟩) (.under ⟨2⟩) = .under ⟨3⟩ ∧
        Qualifier.glb h.oracle (.under ⟨1⟩) (.under ⟨2⟩) = .bottom := by
  obtain ⟨refused, -⟩ :=
    shared_reachable.add_atomic_and_conservative (.ofClass ⟨4⟩ (some ⟨9⟩) [] false)
  obtain ⟨-, accepted⟩ :=
    shared_reachable.add_atomic_and_conservative (.ofClass ⟨4⟩ none [⟨1⟩, ⟨2⟩] false)
  have error : (shared.add (.ofClass ⟨4⟩ (some ⟨9⟩) [] false)).1 = .error (.unknownFrame ⟨9⟩) := by
    decide +kernel
  have told : (shared.add (.ofClass ⟨4⟩ none [⟨1⟩, ⟨2⟩] false)).1 = .ok ⟨4⟩ := by decide +kernel
  obtain ⟨first, -, conserves⟩ := accepted _ told
  have one : shared.knows ⟨1⟩ = true ∧ shared.knows ⟨2⟩ = true ∧ shared.knows ⟨3⟩ = true := by
    decide +kernel
  refine ⟨shared_reachable, ⟨error, refused _ error⟩, _, Prod.ext told rfl, first,
    ⟨?_, ?_⟩, ?_, ?_, ?_⟩
  · rw [conserves.ancestors one.2.2]
    decide +kernel
  · rw [conserves.lub? one.1 one.2.1]
    decide +kernel
  · rw [conserves.lub (by decide +kernel) (by decide +kernel)]
    decide +kernel
  · decide +kernel
  · decide +kernel

end Hierarchy

end ObjectInit
