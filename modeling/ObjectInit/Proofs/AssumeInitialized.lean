import ObjectInit.FieldRead
import ObjectInit.Proofs.Report.Findings

/-! # Assuming everything initialized

The switch turns off the qualifier of the current object, the widening of reads, and the checks of
classes and of constructors. The checks of the implicit constructor and of static fields do not look
at it.
-/

namespace ObjectInit

universe u v

namespace Analysis

variable {V : Type u} {Q : Type v} {a : Analysis V}

/-! ## What the switch turns off -/

theorem selfQualifierAt_of_assumed (assumed : a.options.assumeInitialized = true) (l : Location) :
    a.selfQualifierAt l = .initialized := if_pos assumed

theorem selfQualifiersFrom_of_assumed (assumed : a.options.assumeInitialized = true)
    (limit : Nat) (l : Location) : ∀ entry ∈ a.selfQualifiersFrom limit l,
      entry.2 = .initialized := by
  induction limit generalizing l with
  | zero =>
      intro entry h
      cases h
  | succ limit ih =>
      intro entry h
      unfold selfQualifiersFrom at h
      cases inside : a.declarations.enclosingMember? l with
      | none =>
          rw [inside] at h
          cases h
      | some m =>
          rw [inside] at h
          cases List.mem_cons.mp h with
          | inl first => rw [first, if_pos assumed]
          | inr outer =>
              cases site : a.outerSite? m with
              | none =>
                  rw [site] at outer
                  cases outer
              | some l' =>
                  rw [site] at outer
                  exact ih l' entry outer

theorem adapt_of_assumed (assumed : a.options.assumeInitialized = true) (access : FieldAccess)
    (receiver : Qualifier) (known : Bool) (system : QualifierSystem Q) :
    a.adapt access receiver known system = none := by
  simp [adapt, assumed]

theorem adaptDeclared_of_assumed (assumed : a.options.assumeInitialized = true)
    (access : FieldAccess) (receiver : Qualifier) : a.adaptDeclared access receiver = none := by
  simp [adaptDeclared, assumed]

theorem checkClass_of_assumed (assumed : a.options.assumeInitialized = true) (frame : Frame)
    (b : ErrorBuffer) : a.checkClass frame b = b := by
  have nothing : a.classFindings frame = [] := if_pos assumed
  unfold checkClass
  rw [nothing]
  rfl

theorem checkConstructor_of_assumed (assumed : a.options.assumeInitialized = true) (m : MemberId)
    (b : ErrorBuffer) : a.checkConstructor m b = b := by
  have nothing : a.constructorFinding? m = none := if_pos assumed
  unfold checkConstructor
  rw [nothing]
  rfl

/-! ## What it does not turn off -/

theorem unassigned_eq_nil_iff {options : Options} {fields : List FieldDecl}
    {assigned : List FieldId} :
    (fields.filter fun f =>
        !f.needsNoAssignment options none && !assigned.contains f.id).map (·.id) = [] ↔
      ∀ f ∈ fields, f.needsNoAssignment options none = true ∨ f.id ∈ assigned := by
  simp only [List.map_eq_nil_iff, List.filter_eq_nil_iff, ← Bool.not_or, Bool.not_eq_true',
    Bool.not_eq_false, Bool.or_eq_true, List.contains_iff_mem]

/-- Is every field set by its declaration, or assigned by an initializer of the kind? -/
def AllSetBy (a : Analysis V) (frame : Frame) (kind : MemberKind) (fields : List FieldDecl) :
    Prop :=
  ∀ f ∈ fields, f.needsNoAssignment a.options none = true ∨
    f.id ∈ a.declarations.assignedBy a.results frame kind

theorem checkDefaultConstructor_silent_iff (frame : Frame) :
    (∀ b, a.checkDefaultConstructor frame b = b) ↔
      a.AllSetBy frame .instanceInitializer (a.declarations.instanceFieldsOf frame) := by
  unfold checkDefaultConstructor
  rw [ErrorBuffer.recordAll_toList_eq_self_iff]
  exact (settled_ofImplicitConstructor frame).finding?_eq_none_iff.trans unassigned_eq_nil_iff

theorem checkStaticFields_silent_iff (collected : a.declarations.Reachable) (frame : Frame) :
    (∀ b, a.checkStaticFields frame b = b) ↔
      a.AllSetBy frame .staticInitializer (a.declarations.staticFieldsOf frame) := by
  unfold checkStaticFields
  rw [ErrorBuffer.recordAll_toList_eq_self_iff]
  exact (settled_ofStatics collected frame).finding?_eq_none_iff.trans unassigned_eq_nil_iff

/-- With everything assumed initialized, objects count as finished, no read is widened, and neither
classes nor constructors have findings. The checks of the implicit constructor and of static fields,
made on their own, are silent exactly where all fields are set anyway. -/
theorem assumeInitialized_silences_guarded_checks (assumed : a.options.assumeInitialized = true)
    (collected : a.declarations.Reachable) (system : QualifierSystem Q) :
    (∀ l, a.selfQualifierAt l = .initialized ∧
        ∀ entry ∈ a.selfQualifiersAt l, entry.2 = .initialized) ∧
      (∀ access receiver known, a.adapt access receiver known system = none ∧
        a.adaptDeclared access receiver = none) ∧
      (∀ l access, a.adaptAt l access system = none) ∧
      (∀ frame m b, a.checkClass frame b = b ∧ a.checkConstructor m b = b) ∧
      ∀ frame,
        ((∀ b, a.checkDefaultConstructor frame b = b) ↔
          a.AllSetBy frame .instanceInitializer (a.declarations.instanceFieldsOf frame)) ∧
        ((∀ b, a.checkStaticFields frame b = b) ↔
          a.AllSetBy frame .staticInitializer (a.declarations.staticFieldsOf frame)) := by
  refine ⟨?_, ?_, ?_, ?_, ?_⟩
  · intro l
    exact ⟨selfQualifierAt_of_assumed assumed l, selfQualifiersFrom_of_assumed assumed _ l⟩
  · intro access receiver known
    exact ⟨adapt_of_assumed assumed access receiver known system,
      adaptDeclared_of_assumed assumed access receiver⟩
  · intro l access
    exact adapt_of_assumed assumed access _ _ system
  · intro frame m b
    exact ⟨checkClass_of_assumed assumed frame b, checkConstructor_of_assumed assumed m b⟩
  · intro frame
    exact ⟨checkDefaultConstructor_silent_iff frame, checkStaticFields_silent_iff collected frame⟩

/-- A class with an instance field and a static field and without members. -/
def bareTable : DeclarationTable :=
  let t := (DeclarationTable.empty.declareClass ⟨1⟩ ⟨2⟩ ⟨10⟩ false).2
  let t := (t.declareField { id := ⟨⟨1⟩, ⟨3⟩⟩, location := ⟨11⟩ }).2
  (t.declareField { id := ⟨⟨1⟩, ⟨4⟩⟩, location := ⟨12⟩, isStatic := true }).2

def bareAnalysis : Analysis TrackedValue :=
  ⟨bareTable, (Hierarchy.withRoot ⟨1⟩).oracle, { assumeInitialized := true }, ∅⟩

/-- The check of the class is silent, but neither of the two checks that it would make is. -/
theorem assumeInitialized_silences_guarded_checks_of_bare :
    (∀ b, bareAnalysis.checkClass ⟨1⟩ b = b) ∧
      ¬ (∀ b, bareAnalysis.checkDefaultConstructor ⟨1⟩ b = b) ∧
      ¬ ∀ b, bareAnalysis.checkStaticFields ⟨1⟩ b = b := by
  have collected : bareTable.Reachable :=
    .declareField _ (.declareField _ (.declareClass _ _ _ _ .empty))
  obtain ⟨-, -, -, silent, direct⟩ := assumeInitialized_silences_guarded_checks
    (a := bareAnalysis) rfl collected Nullness.qualifiers
  refine ⟨fun b => (silent ⟨1⟩ ⟨0⟩ b).1, ?_, ?_⟩
  · rw [(direct ⟨1⟩).1]
    unfold AllSetBy
    decide
  · rw [(direct ⟨1⟩).2]
    unfold AllSetBy
    decide

/-- Not all checks keep to the switch. -/
theorem assumeInitialized_ignored_by_direct_checks :
    bareAnalysis.options.assumeInitialized = true ∧
      bareAnalysis.checkDefaultConstructor ⟨1⟩ ∅ ≠ ∅ ∧
      bareAnalysis.checkStaticFields ⟨1⟩ ∅ ≠ ∅ := by
  decide

end Analysis

end ObjectInit
