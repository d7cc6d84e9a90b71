import ObjectInit.Proofs.Declaration.Members
import ObjectInit.Proofs.ExitCheck
import ObjectInit.Proofs.Report.Diagnostics

/-! # The candidates of a check

The candidates of a check are the fields that it asks for and that its code has not assigned, in
order of declaration. A diagnostic about one of them alone stands at its declaration.
-/

namespace ObjectInit

universe u

inductive ExitCheck
  | ofConstructor (d : MemberDecl)
  | ofImplicitConstructor (frame : Frame)
  | ofStatics (frame : Frame)
deriving DecidableEq

namespace ExitCheck

def frame : ExitCheck → Frame
  | ofConstructor d => d.owner
  | ofImplicitConstructor frame | ofStatics frame => frame

def key : ExitCheck → String
  | ofConstructor _ => Template.fieldsUninitialized
  | ofImplicitConstructor _ => Template.fieldUninitialized
  | ofStatics _ => Template.staticFieldUninitialized

def perField : ExitCheck → Bool
  | ofConstructor _ => false
  | ofImplicitConstructor _ | ofStatics _ => true

def isStatic : ExitCheck → Bool
  | ofConstructor _ | ofImplicitConstructor _ => false
  | ofStatics _ => true

def receiver? : ExitCheck → Option Qualifier
  | ofConstructor d => d.declaredReceiver
  | ofImplicitConstructor _ | ofStatics _ => none

/-- Is the field one that must be assigned by the code that is checked? -/
def asks (check : ExitCheck) (options : Options) (f : FieldDecl) : Bool :=
  f.isStatic == check.isStatic && !f.needsNoAssignment options check.receiver?

def sentence (names : String) : ExitCheck → String
  | ofConstructor _ => "the constructor does not initialize fields: " ++ names
  | ofImplicitConstructor _ => "the default constructor does not initialize field " ++ names
  | ofStatics _ => "static field " ++ names ++ " is not initialized"

theorem ofKey_key (check : ExitCheck) (l : Location) (names : String) :
    Diagnostic.ofKey l check.key [names] = ⟨.error, check.key, l, check.sentence names⟩ := by
  cases check with
  | ofConstructor d =>
      have found : Template.find? Template.fieldsUninitialized = some ⟨_, .error,
          "the constructor does not initialize fields: \x7b0\x7d"⟩ := rfl
      have filled : Template.fill "the constructor does not initialize fields: \x7b0\x7d" [names] =
          sentence names (.ofConstructor d) :=
        Template.fill_hole_at_end (by simp) (by simp [Template.hole]) names
      exact Diagnostic.ofKey_of_fill found filled
  | ofImplicitConstructor frame =>
      have found : Template.find? Template.fieldUninitialized = some ⟨_, .error,
          "the default constructor does not initialize field \x7b0\x7d"⟩ := rfl
      have filled :
          Template.fill "the default constructor does not initialize field \x7b0\x7d" [names] =
            sentence names (.ofImplicitConstructor frame) :=
        Template.fill_hole_at_end (by simp) (by simp [Template.hole]) names
      exact Diagnostic.ofKey_of_fill found filled
  | ofStatics frame =>
      have found : Template.find? Template.staticFieldUninitialized = some ⟨_, .error,
          "static field \x7b0\x7d is not initialized"⟩ := rfl
      have filled : Template.fill "static field \x7b0\x7d is not initialized" [names] =
          sentence names (.ofStatics frame) :=
        Template.fill_hole (by simp) (by simp) (by simp [Template.hole]) names
      exact Diagnostic.ofKey_of_fill found filled

end ExitCheck

namespace DeclarationTable

variable {V : Type u} {t : DeclarationTable} {results : FlowResults V} {frame : Frame}
  {kind : MemberKind}

theorem notMem_assignedBy_iff {f : FieldId} : f ∉ t.assignedBy results frame kind ↔
    ∀ d ∈ t.membersOfKind frame kind, ∀ s, results.exitStore? d.id = some s →
      s.isInitialized f = false := by
  unfold assignedBy
  rw [List.mem_flatMap, not_exists]
  refine forall_congr' fun d => ?_
  rw [not_and]
  refine forall_congr' fun _ => ?_
  cases results.exitStore? d.id with
  | none => simp
  | some s => simp [Store.isInitialized, FiniteSet.mem_toList]

end DeclarationTable

namespace Analysis

variable {V : Type u} {a : Analysis V} {check : ExitCheck}

/-- The fields that a check finds unassigned, in order of declaration. A constructor that never ends
regularly has none. -/
def candidates (a : Analysis V) : ExitCheck → List FieldId
  | .ofConstructor d =>
    match a.results.exitStore? d.id with
    | some exit => a.unassignedByConstructor d exit
    | none => []
  | .ofImplicitConstructor frame => a.unassignedByDefault frame
  | .ofStatics frame => a.unassignedStatics frame

/-- Has the code that is checked assigned the field? A constructor must have done so wherever it
ends, while one initializer of several is enough. -/
def assigns (a : Analysis V) (check : ExitCheck) (f : FieldId) : Bool :=
  match check with
  | .ofConstructor d => (a.results.exitStore? d.id).all (·.isInitialized f)
  | .ofImplicitConstructor frame =>
    (a.declarations.assignedBy a.results frame .instanceInitializer).contains f
  | .ofStatics frame =>
    (a.declarations.assignedBy a.results frame .staticInitializer).contains f

def Leaves (a : Analysis V) (check : ExitCheck) (f : FieldId) : Prop :=
  match check with
  | .ofConstructor d => ∃ s, a.results.exitStore? d.id = some s ∧ s.isInitialized f = false
  | .ofImplicitConstructor frame =>
    ∀ d ∈ a.declarations.membersOfKind frame .instanceInitializer, ∀ s,
      a.results.exitStore? d.id = some s → s.isInitialized f = false
  | .ofStatics frame =>
    ∀ d ∈ a.declarations.membersOfKind frame .staticInitializer, ∀ s,
      a.results.exitStore? d.id = some s → s.isInitialized f = false

theorem assigns_eq_false_iff {f : FieldId} : a.assigns check f = false ↔ a.Leaves check f := by
  cases check with
  | ofConstructor d => simp [assigns, Leaves, Option.all_eq_false]
  | ofImplicitConstructor frame =>
      refine Iff.trans ?_ DeclarationTable.notMem_assignedBy_iff
      simp [assigns]
  | ofStatics frame =>
      refine Iff.trans ?_ DeclarationTable.notMem_assignedBy_iff
      simp [assigns]

def fails (a : Analysis V) (check : ExitCheck) (f : FieldDecl) : Bool :=
  check.asks a.options f && !a.assigns check f.id

theorem candidates_of_no_exit {d : MemberDecl} (endless : a.results.exitStore? d.id = none) :
    a.candidates (.ofConstructor d) = [] := by
  simp only [candidates, endless]

theorem candidates_of_exit {d : MemberDecl} {s : Store V}
    (exit : a.results.exitStore? d.id = some s) :
    a.candidates (.ofConstructor d) = a.unassignedByConstructor d s := by
  simp only [candidates, exit]

theorem candidates_eq (a : Analysis V) (check : ExitCheck) :
    a.candidates check =
      ((a.declarations.fieldsOf check.frame).filter (a.fails check)).map (·.id) := by
  cases check with
  | ofConstructor d =>
      cases exit : a.results.exitStore? d.id with
      | none =>
          have nothing :
              (a.declarations.fieldsOf d.owner).filter (a.fails (.ofConstructor d)) = [] := by
            rw [List.filter_eq_nil_iff]
            intro f _
            simp [fails, assigns, exit]
          exact (candidates_of_no_exit exit).trans (congrArg (List.map _) nothing).symm
      | some s =>
          have hfails (f : FieldDecl) : a.fails (.ofConstructor d) f =
              (!s.isInitialized f.id && !f.needsNoAssignment a.options d.declaredReceiver &&
                !f.isStatic) := by
            simp only [fails, ExitCheck.asks, ExitCheck.isStatic, ExitCheck.receiver?, assigns,
              exit, Option.all_some, beq_false, Bool.and_comm, Bool.and_assoc]
          rw [candidates_of_exit exit, unassignedByConstructor, DeclarationTable.instanceFieldsOf,
            List.filter_filter, List.filter_filter]
          exact congrArg (List.map _) (List.filter_congr fun f _ => (hfails f).symm)
  | ofImplicitConstructor frame =>
      show a.unassignedByDefault frame = _
      rw [unassignedByDefault, DeclarationTable.instanceFieldsOf, List.filter_filter]
      refine congrArg (List.map _) (List.filter_congr fun f _ => ?_)
      simp only [fails, ExitCheck.asks, ExitCheck.isStatic, ExitCheck.receiver?, assigns,
        beq_false, Bool.and_comm, Bool.and_left_comm]
  | ofStatics frame =>
      show a.unassignedStatics frame = _
      rw [unassignedStatics, DeclarationTable.staticFieldsOf, List.filter_filter]
      refine congrArg (List.map _) (List.filter_congr fun f _ => ?_)
      simp only [fails, ExitCheck.asks, ExitCheck.isStatic, ExitCheck.receiver?, assigns,
        beq_true, Bool.and_comm, Bool.and_left_comm]

theorem candidates_sublist (a : Analysis V) (check : ExitCheck) :
    (a.candidates check).Sublist ((a.declarations.fieldsOf check.frame).map (·.id)) := by
  rw [candidates_eq]
  exact List.filter_sublist.map _

/-- A candidate is a declared field of the class that the check asks for and that is left
unassigned, and there are no others. -/
theorem mem_candidates_iff (collected : a.declarations.Reachable) {id : FieldId} :
    id ∈ a.candidates check ↔ ∃ f, a.declarations.field? id = some f ∧ id.owner = check.frame ∧
      check.asks a.options f = true ∧ a.Leaves check id := by
  rw [candidates_eq, List.mem_map, ← assigns_eq_false_iff]
  constructor
  · intro ⟨f, hf, same⟩
    obtain ⟨listed, failing⟩ := List.mem_filter.mp hf
    obtain ⟨declared, owner⟩ := collected.mem_fieldsOf_iff.mp listed
    rw [fails, Bool.and_eq_true, Bool.not_eq_true'] at failing
    rw [← same]
    exact ⟨f, declared, owner, failing⟩
  · intro ⟨f, declared, owner, asked, unassigned⟩
    have same := collected.fieldsListed.key declared
    have failing : a.fails check f = true := by
      rw [fails, asked, same, unassigned]
      rfl
    rw [← same] at declared owner
    have listed := collected.mem_fieldsOf_iff.mpr ⟨declared, owner⟩
    exact ⟨f, List.mem_filter.mpr ⟨listed, failing⟩, same⟩

/-! ## What is told of them -/

def errorAt (a : Analysis V) (check : ExitCheck) (l : Location) : PendingError :=
  { location := l, fields := a.candidates check, key := check.key, perField := check.perField }

/-- The fields for which a check fails and that are neither suppressed nor exempt. -/
def failing (a : Analysis V) (check : ExitCheck) (isExempt : FieldId → Bool)
    (suppression : Suppression) : List FieldDecl :=
  (a.declarations.fieldsOf check.frame).filter fun f =>
    a.fails check f && (!suppression f.id check.key && !isExempt f.id)

theorem remaining_errorAt (a : Analysis V) (check : ExitCheck) (l : Location)
    (isExempt : FieldId → Bool) (suppression : Suppression) :
    (a.errorAt check l).remaining isExempt suppression =
      (a.failing check isExempt suppression).map (·.id) := by
  unfold PendingError.remaining errorAt failing
  rw [candidates_eq, List.filter_map, List.filter_filter]
  refine congrArg (List.map _) (List.filter_congr fun f _ => ?_)
  exact Bool.and_comm _ _

/-- A check of static fields, or of the implicit constructor, tells of each failing field at its own
declaration, in order. A check of a constructor tells of all of them at once. -/
theorem diagnostics_errorAt (collected : a.declarations.Reachable) (check : ExitCheck)
    (l : Location) (isExempt : FieldId → Bool) (suppression : Suppression) (names : NameTable) :
    let e := a.errorAt check l
    let failing := a.failing check isExempt suppression
    e.diagnostics (e.remaining isExempt suppression) a.declarations names =
      if check.perField then
        failing.map fun f =>
          ⟨.error, check.key, f.location, check.sentence (names.resolve f.id.name)⟩
      else if failing = [] then []
      else [⟨.error, check.key, l,
        check.sentence (", ".intercalate (failing.map fun f => names.resolve f.id.name))⟩] := by
  intro e failing
  have remaining : e.remaining isExempt suppression = failing.map (·.id) :=
    remaining_errorAt a check l isExempt suppression
  rw [remaining]
  cases perField : check.perField with
  | true =>
      rw [PendingError.diagnostics_perField perField, List.map_map, if_pos rfl]
      apply List.map_congr_left
      intro f hf
      have listed := (List.mem_filter.mp hf).1
      have declared := (collected.mem_fieldsOf_iff.mp listed).1
      exact (congrArg (Diagnostic.ofKey · _ _) (PendingError.placeOf_eq declared)).trans
        (check.ofKey_key _ _)
  | false =>
      rw [PendingError.diagnostics_of_names perField rfl, if_neg Bool.false_ne_true]
      simp only [List.map_eq_nil_iff, List.map_map]
      exact ite_congr rfl (fun _ => rfl) fun _ => congrArg (fun d => [d]) (check.ofKey_key _ _)

end Analysis

end ObjectInit
