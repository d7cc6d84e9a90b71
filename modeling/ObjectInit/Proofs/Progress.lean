import ObjectInit.Proofs.ExitCheck
import ObjectInit.Proofs.Qualifier.Hierarchy

/-! # Progress of an object under construction

While an object is built its qualifier is that of the superclass's frame or, once all own fields are
assigned, of the class's own, which is one step down.
-/

namespace ObjectInit

universe u

theorem Hierarchy.Reachable.le_supertypeOrRoot {h : Hierarchy} (hr : h.Reachable) {f : Frame}
    (known : h.knows f = true) : h.oracle.frameLe f (h.oracle.supertypeOrRoot f) = true := by
  rw [frameLe_eq_isSubtype known]
  rcases h.supertypeOrRoot_cases f with heq | parent
  · rw [heq]
    exact hr.isSubtype_root known
  · exact hr.parentsFirst.isSubtype_parent parent

namespace Analysis

variable {V : Type u} {a : Analysis V} {h : Hierarchy} {l : Location} {m : MemberDecl}

theorem ownFieldsAssigned_of_grows {s s' : Store V}
    (grows : ∀ f, s.isInitialized f = true → s'.isInitialized f = true)
    (assigned : a.ownFieldsAssigned m s = true) : a.ownFieldsAssigned m s' = true := by
  rw [ownFieldsAssigned_iff] at assigned ⊢
  exact fun f declared used => grows f.id (assigned f declared used)

theorem ownFieldsAssigned_merge [DecidableEq V] [AbstractValue V] (s₁ s₂ : Store V) :
    a.ownFieldsAssigned m (s₁.merge s₂) =
      (a.ownFieldsAssigned m s₁ && a.ownFieldsAssigned m s₂) := by
  rw [Bool.eq_iff_iff, Bool.and_eq_true]
  simp only [ownFieldsAssigned_iff, Store.isInitialized_merge, Bool.and_eq_true]
  grind

/-- The qualifier of the current object at a place when the store is the one before it. -/
def selfQualifierGiven (a : Analysis V) (l : Location) (s : Store V) : Qualifier :=
  { a with results := a.results.recordBefore l s }.selfQualifierAt l

theorem selfQualifierAt_eq_given {s : Store V} (before : a.results.storeBefore? l = some s) :
    a.selfQualifierAt l = a.selfQualifierGiven l s := by
  have recorded : (a.results.recordBefore l s).storeBefore? l = some s :=
    FiniteMap.get?_insert_self ..
  unfold selfQualifierGiven selfQualifierAt selfQualifierIn
  simp only [before, recorded]
  rfl

section UnderConstruction

variable (enabled : a.options.assumeInitialized = false) (hierarchy : a.oracle = h.oracle)
  (grown : h.Reachable) (enclosing : a.declarations.enclosingMember? l = some m)
  (kind : m.kind = .constructor ∨ m.kind = .instanceInitializer)
  (known : h.knows m.owner = true) (notFinal : a.declarations.isFinalClass m.owner = false)

include enabled hierarchy enclosing kind notFinal

theorem selfQualifierGiven_eq (s : Store V) :
    a.selfQualifierGiven l s =
      if a.declarations.allFieldsInitializedOnly m.owner && a.ownFieldsAssigned m s then
        .under m.owner
      else .under (h.oracle.supertypeOrRoot m.owner) := by
  have recorded : (a.results.recordBefore l s).storeBefore? l = some s :=
    FiniteMap.get?_insert_self ..
  have committed : a.committedQualifier m.owner = .under m.owner := by
    simp [committedQualifier, notFinal]
  have uncommitted :
      a.uncommittedQualifier m.owner = .under (h.oracle.supertypeOrRoot m.owner) := by
    rw [uncommittedQualifier, hierarchy]
  rw [← committed, ← uncommitted]
  refine (selfQualifierAt_eq (a := { a with results := a.results.recordBefore l s })
    enabled enclosing kind).trans ?_
  simp only [recorded, Option.any_some]
  rfl

include grown known

theorem selfQualifierGiven_le_of_grows {s s' : Store V}
    (grows : ∀ f, s.isInitialized f = true → s'.isInitialized f = true) :
    Qualifier.le h.oracle (a.selfQualifierGiven l s') (a.selfQualifierGiven l s) = true := by
  rw [selfQualifierGiven_eq enabled hierarchy enclosing kind notFinal,
    selfQualifierGiven_eq enabled hierarchy enclosing kind notFinal]
  cases hs : a.declarations.allFieldsInitializedOnly m.owner && a.ownFieldsAssigned m s with
  | true =>
      obtain ⟨plain, assigned⟩ := Bool.and_eq_true_iff.mp hs
      rw [plain, ownFieldsAssigned_of_grows grows assigned, Bool.and_self]
      exact Qualifier.le_refl _ _
  | false =>
      split
      · exact grown.le_supertypeOrRoot known
      · exact Qualifier.le_refl _ _

theorem selfQualifierGiven_run_le (p : Path V) (s : Store V) :
    Qualifier.le h.oracle (a.selfQualifierGiven l (p.run a.declarations s))
      (a.selfQualifierGiven l s) = true :=
  selfQualifierGiven_le_of_grows enabled hierarchy grown enclosing kind known notFinal
    fun f hf => (p.isInitialized_run a.declarations s f).mpr (.inl hf)

/-- The two frames that the qualifier can have are one step apart, so the upper one is their
bound. -/
theorem selfQualifierGiven_merge [DecidableEq V] [AbstractValue V]
    (nonroot : m.owner ≠ Hierarchy.root) (s₁ s₂ : Store V) :
    a.selfQualifierGiven l (s₁.merge s₂) =
      Qualifier.lub h.oracle (a.selfQualifierGiven l s₁) (a.selfQualifierGiven l s₂) := by
  have down : Qualifier.le h.oracle (.under m.owner)
      (.under (h.oracle.supertypeOrRoot m.owner)) = true :=
    grown.le_supertypeOrRoot known
  have up : Qualifier.le h.oracle (.under (h.oracle.supertypeOrRoot m.owner))
      (.under m.owner) = false :=
    grown.parentsFirst.frameLe_supertypeOrRoot nonroot
  simp only [selfQualifierGiven_eq enabled hierarchy enclosing kind notFinal,
    ownFieldsAssigned_merge]
  cases a.declarations.allFieldsInitializedOnly m.owner with
  | false => exact (Qualifier.lub_self _ _).symm
  | true =>
      simp only [Bool.true_and]
      cases a.ownFieldsAssigned m s₁ <;> cases a.ownFieldsAssigned m s₂
      case true.true => exact (Qualifier.lub_self _ _).symm
      case true.false => exact (Qualifier.lub_of_le down).symm
      case false.true => exact (Qualifier.lub_of_ge up down).symm
      case false.false => exact (Qualifier.lub_self _ _).symm

/-- Where a class other than the root that may have subclasses builds an object, every operation
lowers the qualifier of the object or leaves it, and a merge of stores has the least upper bound of
the qualifiers. -/
theorem selfQualifierGiven_lowered_and_joined [DecidableEq V] [AbstractValue V]
    (nonroot : m.owner ≠ Hierarchy.root) :
    (∀ s, a.results.storeBefore? l = some s → a.selfQualifierAt l = a.selfQualifierGiven l s) ∧
      (∀ (op : Operation V) (s : Store V),
        Qualifier.le h.oracle (a.selfQualifierGiven l (op.apply a.declarations s))
          (a.selfQualifierGiven l s) = true) ∧
      ∀ s₁ s₂ : Store V, a.selfQualifierGiven l (s₁.merge s₂) =
        Qualifier.lub h.oracle (a.selfQualifierGiven l s₁) (a.selfQualifierGiven l s₂) := by
  refine ⟨fun s => selfQualifierAt_eq_given, fun op s => ?lowered, ?joined⟩
  case lowered =>
    exact selfQualifierGiven_run_le enabled hierarchy grown enclosing kind known notFinal [op] s
  case joined =>
    exact selfQualifierGiven_merge enabled hierarchy grown enclosing kind known notFinal nonroot

end UnderConstruction

/-- The assignment of the plain field takes the object one step down, and where its path meets the
entry the object is up again. -/
theorem selfQualifierGiven_lowered_and_joined_of_plain_field :
    let a : Analysis TrackedValue := pairAnalysis ∅
    let entry : Store TrackedValue := pairTable.entryStore {} ⟨0⟩
    let op : Operation TrackedValue := .assign (.field .self ⟨⟨1⟩, ⟨4⟩⟩) (.tag 1)
    let assigned := op.apply pairTable entry
    (a.selfQualifierGiven ⟨14⟩ entry = .under Hierarchy.root ∧
        a.selfQualifierGiven ⟨14⟩ assigned = .under ⟨1⟩) ∧
      Qualifier.le a.oracle (a.selfQualifierGiven ⟨14⟩ assigned)
        (a.selfQualifierGiven ⟨14⟩ entry) = true ∧
      a.selfQualifierGiven ⟨14⟩ (entry.merge assigned) = Qualifier.lub a.oracle
        (a.selfQualifierGiven ⟨14⟩ entry) (a.selfQualifierGiven ⟨14⟩ assigned) ∧
      a.selfQualifierAt ⟨14⟩ = a.selfQualifierGiven ⟨14⟩ ∅ := by
  intro a entry op assigned
  have law := selfQualifierGiven_lowered_and_joined (a := a) (l := ⟨14⟩)
    (m := ⟨⟨0⟩, ⟨1⟩, .constructor, ⟨13⟩, none⟩) rfl rfl (.addClass _ _ _ _ (.withRoot _)) rfl
    (.inl rfl) (by decide +kernel) (by decide) (by decide)
  obtain ⟨given, lowered, joined⟩ := law
  exact ⟨⟨by decide +kernel, by decide +kernel⟩, lowered op entry, joined entry assigned,
    given ∅ rfl⟩

end Analysis

end ObjectInit
