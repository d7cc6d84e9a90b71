import ObjectInit.ExitCheck
import ObjectInit.Nullness
import ObjectInit.Proofs.Declaration.Growth
import ObjectInit.Proofs.Flow.Reaches
import ObjectInit.Proofs.SelfQualifier

/-! # What a constructor owes at its end

The check of a constructor and the qualifier of its object ask for different fields, and yet agree:
what the check passes over is assigned at the entry and never lost.
-/

namespace ObjectInit

universe u

theorem DeclarationTable.mem_instanceFieldsOf {t : DeclarationTable} {frame : Frame}
    {f : FieldDecl} : f ∈ t.instanceFieldsOf frame ↔ f ∈ t.fieldsOf frame ∧ f.isStatic = false := by
  simp [instanceFieldsOf]

/-- Apart from fields that the receiver does not use, the check of a constructor spares exactly
the fields that are assigned at its entry. -/
theorem FieldDecl.needsNoAssignment_eq {f : FieldDecl} (ofObject : f.isStatic = false)
    (options : Options) (receiver : Option Qualifier) :
    f.needsNoAssignment options receiver =
      (f.isUnusedFor receiver || f.isSetOnEntry options .constructor) := by
  unfold needsNoAssignment isSetOnEntry
  simp [ofObject, MemberKind.isStatic, Bool.or_assoc]

theorem ErrorBuffer.recordAll_toList_eq_self_iff {finding : Option PendingError} :
    (∀ b : ErrorBuffer, b.recordAll finding.toList = b) ↔ finding = none := by
  constructor
  · intro h
    cases finding with
    | none => rfl
    | some e => cases h empty
  · intro h b
    rw [h]
    rfl

namespace Analysis

variable {V : Type u} {a : Analysis V} {m : MemberId} {d : MemberDecl} {s : Store V}

theorem constructorFinding?_eq (enabled : a.options.assumeInitialized = false)
    (declared : a.declarations.member? m = some d) (exit : a.results.exitStore? m = some s) :
    a.constructorFinding? m =
      if a.unassignedByConstructor d s = [] then none
      else some { location := d.location, fields := a.unassignedByConstructor d s,
                  key := Template.fieldsUninitialized } := by
  unfold constructorFinding?
  simp [enabled, declared, exit]

theorem constructorFinding?_eq_none_iff (enabled : a.options.assumeInitialized = false)
    (declared : a.declarations.member? m = some d) (exit : a.results.exitStore? m = some s) :
    a.constructorFinding? m = none ↔ a.unassignedByConstructor d s = [] := by
  rw [constructorFinding?_eq enabled declared exit]
  simp

theorem defaultConstructorFinding?_eq {frame : Frame} {c : ClassDecl}
    (declared : a.declarations.class? frame = some c) :
    a.defaultConstructorFinding? frame =
      if a.unassignedByDefault frame = [] then none
      else some { location := c.location, fields := a.unassignedByDefault frame,
                  key := Template.fieldUninitialized, perField := true } := by
  unfold defaultConstructorFinding?
  simp [declared]

theorem unassignedByDefault_of_undeclared {frame : Frame}
    (undeclared : a.declarations.class? frame = none) : a.unassignedByDefault frame = [] := by
  unfold unassignedByDefault DeclarationTable.instanceFieldsOf DeclarationTable.fieldsOf
  simp [undeclared]

theorem unassignedByConstructor_eq_nil_iff :
    a.unassignedByConstructor d s = [] ↔ ∀ f ∈ a.declarations.instanceFieldsOf d.owner,
      f.needsNoAssignment a.options d.declaredReceiver = false → s.isInitialized f.id = true := by
  unfold unassignedByConstructor
  simp only [List.map_eq_nil_iff, List.filter_eq_nil_iff, List.mem_filter, Bool.not_eq_true',
    and_imp, Bool.not_eq_false]

/-- In a store that the body reaches, the fields that the check asks for are assigned exactly if
all fields that the receiver uses are. -/
theorem unassignedByConstructor_eq_nil_iff_ownFieldsAssigned [DecidableEq V] [AbstractValue V]
    (declared : a.declarations.member? m = some d) (kind : d.kind = .constructor)
    (reached : a.declarations.Reaches a.options m s) :
    a.unassignedByConstructor d s = [] ↔ a.ownFieldsAssigned d s = true := by
  rw [unassignedByConstructor_eq_nil_iff, ownFieldsAssigned_iff]
  constructor
  · intro h f hf hused
    obtain ⟨hfield, hinstance⟩ := DeclarationTable.mem_instanceFieldsOf.mp hf
    -- What the check spares apart from unused fields is assigned at the entry, hence here too.
    cases hset : f.isSetOnEntry a.options .constructor with
    | true => exact reached.isInitialized_of_isSetOnEntry declared hfield (by rw [kind, hset])
    | false =>
        apply h f hf
        rw [f.needsNoAssignment_eq hinstance, hused, hset, Bool.or_self]
  · intro h f hf hneeded
    apply h f hf
    obtain ⟨-, hinstance⟩ := DeclarationTable.mem_instanceFieldsOf.mp hf
    rw [f.needsNoAssignment_eq hinstance, Bool.or_eq_false_iff] at hneeded
    exact hneeded.1

/-- Where a constructor ends, the check of the constructor and the qualifier of its object agree on
whether it has assigned the fields of its class: either nothing is recorded and the object counts
as initialized up to the class, or something is and it counts as initialized up to the superclass
only. -/
theorem checkConstructor_silent_iff_committed [DecidableEq V] [AbstractValue V] {h : Hierarchy}
    {l : Location} (enabled : a.options.assumeInitialized = false)
    (hierarchy : a.oracle = h.oracle) (grown : h.Reachable)
    (declared : a.declarations.member? m = some d) (kind : d.kind = .constructor)
    (nonroot : d.owner ≠ Hierarchy.root)
    (plain : ∀ f ∈ a.declarations.instanceFieldsOf d.owner, f.notOnlyInitialized = false)
    (reached : a.declarations.Reaches a.options m s) (exit : a.results.exitStore? m = some s)
    (inside : a.declarations.memberAt.get? l = some m)
    (before : a.results.storeBefore? l = some s) :
    ((∀ b, a.checkConstructor m b = b) ↔
        a.selfQualifierAt l = a.committedQualifier d.owner) ∧
      ((∃ b, a.checkConstructor m b ≠ b) →
        a.selfQualifierAt l = .under (a.oracle.supertypeOrRoot d.owner)) := by
  have hsilent : (∀ b, a.checkConstructor m b = b) ↔ a.ownFieldsAssigned d s = true := by
    rw [← unassignedByConstructor_eq_nil_iff_ownFieldsAssigned declared kind reached,
      ← constructorFinding?_eq_none_iff enabled declared exit]
    exact ErrorBuffer.recordAll_toList_eq_self_iff
  have hplain : a.declarations.allFieldsInitializedOnly d.owner = true := by
    unfold DeclarationTable.allFieldsInitializedOnly
    simpa only [List.all_eq_true, Bool.not_eq_true'] using plain
  have henclosing : a.declarations.enclosingMember? l = some d := by
    unfold DeclarationTable.enclosingMember?
    rw [inside, Option.bind_some, declared]
  have hqualifier :=
    selfQualifierAt_under_construction enabled henclosing (.inl kind) hplain before
  have hne := committedQualifier_ne_uncommittedQualifier grown hierarchy nonroot
  rw [hsilent, ← not_forall, hsilent, hqualifier]
  cases a.ownFieldsAssigned d s with
  | true => simp
  | false => exact ⟨by simp [hne.symm], fun _ => rfl⟩

/-- A class below the root with a field that has an initializer, a field without one, and a
constructor that begins at 13 and ends at 14. -/
def pairTable : DeclarationTable :=
  let t := (DeclarationTable.empty.declareClass ⟨1⟩ ⟨2⟩ ⟨10⟩ false).2
  let t := (t.declareField { id := ⟨⟨1⟩, ⟨3⟩⟩, location := ⟨11⟩, hasInitializer := true }).2
  let t := (t.declareField { id := ⟨⟨1⟩, ⟨4⟩⟩, location := ⟨12⟩ }).2
  let t := (t.declareMember ⟨1⟩ .constructor ⟨13⟩ none).2
  (t.registerLocation ⟨14⟩ ⟨0⟩).2

def pairAnalysis (s : Store TrackedValue) : Analysis TrackedValue where
  declarations := pairTable
  oracle := ((Hierarchy.withRoot ⟨1⟩).addClass ⟨2⟩ none [] false).2.oracle
  options := {}
  results := (FlowResults.empty.recordBefore ⟨14⟩ s).recordExit ⟨0⟩ s

/-- Once both branches of the constructor assign the plain field, once only one of them. -/
theorem checkConstructor_silent_iff_committed_of_two_ends :
    let entry : Store TrackedValue := pairTable.entryStore {} ⟨0⟩
    let left := entry.assign (.field .self ⟨⟨1⟩, ⟨4⟩⟩) (.tag 1)
    let both := left.merge (entry.callThisConstructor pairTable ⟨1⟩)
    let one := left.merge (entry.callMethod pairTable false)
    ((∀ b, (pairAnalysis both).checkConstructor ⟨0⟩ b = b) ∧
        (pairAnalysis both).selfQualifierAt ⟨14⟩ = .under ⟨1⟩) ∧
      (pairAnalysis one).checkConstructor ⟨0⟩ ∅ ≠ ∅ ∧
        (pairAnalysis one).selfQualifierAt ⟨14⟩ = .under Hierarchy.root := by
  intro entry left both one
  have plain : ∀ f ∈ pairTable.instanceFieldsOf ⟨1⟩, f.notOnlyInitialized = false := by decide
  have agree : ∀ s, pairTable.Reaches {} ⟨0⟩ s →
      ((∀ b, (pairAnalysis s).checkConstructor ⟨0⟩ b = b) ↔
          (pairAnalysis s).selfQualifierAt ⟨14⟩ = (pairAnalysis s).committedQualifier ⟨1⟩) ∧
        ((∃ b, (pairAnalysis s).checkConstructor ⟨0⟩ b ≠ b) →
          (pairAnalysis s).selfQualifierAt ⟨14⟩ =
            .under ((pairAnalysis s).oracle.supertypeOrRoot ⟨1⟩)) := by
    intro s reached
    exact checkConstructor_silent_iff_committed (a := pairAnalysis s) (m := ⟨0⟩) (l := ⟨14⟩)
      (d := ⟨⟨0⟩, ⟨1⟩, .constructor, ⟨13⟩, none⟩) rfl rfl (.addClass _ _ _ _ (.withRoot _)) rfl rfl
      (by decide) plain reached rfl rfl rfl
  have leftReached : pairTable.Reaches {} ⟨0⟩ left :=
    .step (.assign (.field .self ⟨⟨1⟩, ⟨4⟩⟩) (TrackedValue.tag 1)) .entry
  have bothReached : pairTable.Reaches {} ⟨0⟩ both :=
    .merge leftReached (.step (.thisCall ⟨1⟩) .entry)
  have oneReached : pairTable.Reaches {} ⟨0⟩ one :=
    .merge leftReached (.step (.call false) .entry)
  have committed : (pairAnalysis both).selfQualifierAt ⟨14⟩ =
      (pairAnalysis both).committedQualifier ⟨1⟩ := by decide
  have superclass : (pairAnalysis one).oracle.supertypeOrRoot ⟨1⟩ = Hierarchy.root := by
    decide +kernel
  have recorded : (pairAnalysis one).checkConstructor ⟨0⟩ ∅ ≠ ∅ := by decide
  refine ⟨⟨(agree both bothReached).1.mpr committed, by decide⟩, recorded, ?_⟩
  rw [← superclass]
  exact (agree one oneReached).2 ⟨∅, recorded⟩

end Analysis

end ObjectInit
