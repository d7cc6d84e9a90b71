import ObjectInit.FieldRead
import ObjectInit.Proofs.Declaration.Growth
import ObjectInit.Proofs.ExitCheck
import ObjectInit.Proofs.Hierarchy.Paths

/-! # Reads of a class's own fields

A read of an own field is trusted exactly if the store has the field: as long as it is missing, the
object counts as initialized up to the superclass only.
-/

namespace ObjectInit.Analysis

universe u v

variable {V : Type u} {Q : Type v} {a : Analysis V} {l : Location}

theorem isKnownAssigned_ofSelf {id : FieldId} {f : FieldDecl}
    (field : a.declarations.field? id = some f) :
    a.isKnownAssigned l (.ofSelf id) = (a.results.storeBefore? l).any (·.isInitialized id) := by
  simp [isKnownAssigned, FieldAccess.ofSelf, field]

theorem adapt_known (access : FieldAccess) (receiver : Qualifier) (system : QualifierSystem Q) :
    a.adapt access receiver true system = none := by
  simp [adapt]

theorem adapt_ofSelf_uncovered {id : FieldId} {receiver : Qualifier} (system : QualifierSystem Q)
    (enabled : a.options.assumeInitialized = false) (unfinished : receiver.isPartial = true)
    (plain : a.declaredUnknown id = false) (uncovered : a.coversOwner receiver id = false) :
    a.adapt (.ofSelf id) receiver false system = some system.top := by
  simp [adapt, FieldAccess.ofSelf, enabled, unfinished, plain, uncovered]

theorem coversOwner_uncommittedQualifier {h : Hierarchy} (hierarchy : a.oracle = h.oracle)
    (grown : h.Reachable) {id : FieldId} (nonroot : id.owner ≠ Hierarchy.root) :
    a.coversOwner (a.uncommittedQualifier id.owner) id = false := by
  show a.oracle.frameLe (a.oracle.supertypeOrRoot id.owner) id.owner = false
  rw [hierarchy]
  exact grown.parentsFirst.frameLe_supertypeOrRoot nonroot

/-- Where a class other than the root builds an object, a read of one of its own fields keeps the
declared type if the field is assigned in a store before the place, and is widened to the top of
any system of qualifiers otherwise. -/
theorem adaptAt_ofSelf_follows_store {h : Hierarchy} {d : MemberDecl} {id : FieldId}
    {f : FieldDecl} (enabled : a.options.assumeInitialized = false)
    (hierarchy : a.oracle = h.oracle) (grown : h.Reachable)
    (collected : a.declarations.Reachable)
    (inside : a.declarations.enclosingMember? l = some d)
    (kind : d.kind = .constructor ∨ d.kind = .instanceInitializer)
    (nonroot : d.owner ≠ Hierarchy.root)
    (field : a.declarations.field? id = some f) (own : id.owner = d.owner)
    (ofObject : f.isStatic = false) (plain : f.declaredInitialization.isUnknown = false)
    (used : f.isUnusedFor d.declaredReceiver = false) (system : QualifierSystem Q) :
    a.adaptAt l (.ofSelf id) system =
      if (a.results.storeBefore? l).any (·.isInitialized id) then none else some system.top := by
  have hid : f.id = id := collected.fieldsListed.key field
  subst hid
  have declared : f ∈ a.declarations.instanceFieldsOf d.owner :=
    DeclarationTable.mem_instanceFieldsOf.mpr
      ⟨collected.mem_fieldsOf_iff.mpr ⟨field, own⟩, ofObject⟩
  have hunknown : a.declaredUnknown f.id = false := by
    unfold declaredUnknown
    rw [field, Option.any_some, plain]
  show a.adapt (.ofSelf f.id) (a.selfQualifierAt l) (a.isKnownAssigned l (.ofSelf f.id)) system = _
  rw [isKnownAssigned_ofSelf field]
  cases assigned : (a.results.storeBefore? l).any (·.isInitialized f.id) with
  | true => exact adapt_known _ _ system
  | false =>
      -- A missing field keeps the receiver from being committed to the class.
      rw [selfQualifierAt_of_unassigned enabled inside kind declared used assigned, ← own]
      exact adapt_ofSelf_uncovered system enabled rfl hunknown
        (coversOwner_uncommittedQualifier hierarchy grown (own ▸ nonroot))

theorem pairTable_reachable : pairTable.Reachable :=
  .registerLocation _ _ (.declareMember _ _ _ _
    (.declareField _ (.declareField _ (.declareClass _ _ _ _ .empty))))

/-- The plain field is trusted after its assignment and not at the entry, although the field with
an initializer is assigned at both places. -/
theorem adaptAt_ofSelf_follows_store_of_plain_field :
    let entry : Store TrackedValue := pairTable.entryStore {} ⟨0⟩
    let x : FieldId := ⟨⟨1⟩, ⟨4⟩⟩
    (pairAnalysis (entry.assign (.field .self x) (.tag 1))).adaptAt ⟨14⟩ (.ofSelf x)
        Nullness.qualifiers = none ∧
      (pairAnalysis entry).adaptAt ⟨14⟩ (.ofSelf x) Nullness.qualifiers = some .nullable ∧
      entry.isInitialized ⟨⟨1⟩, ⟨3⟩⟩ = true := by
  intro entry x
  have follows : ∀ s : Store TrackedValue,
      (pairAnalysis s).adaptAt ⟨14⟩ (.ofSelf x) Nullness.qualifiers =
        if ((pairAnalysis s).results.storeBefore? ⟨14⟩).any (·.isInitialized x) then none
        else some .nullable := fun s =>
    adaptAt_ofSelf_follows_store (a := pairAnalysis s) (d := ⟨⟨0⟩, ⟨1⟩, .constructor, ⟨13⟩, none⟩)
      rfl rfl (.addClass _ _ _ _ (.withRoot _)) pairTable_reachable rfl (.inl rfl) (by decide) rfl
      rfl rfl rfl rfl Nullness.qualifiers
  exact ⟨(follows _).trans rfl, (follows _).trans rfl, by decide⟩

end ObjectInit.Analysis
