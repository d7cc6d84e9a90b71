import ObjectInit.Proofs.Declaration.OtherClasses
import ObjectInit.Proofs.FieldRead
import ObjectInit.Proofs.Report.Candidates

/-! # Classes are analysed apart

A class is analysed from its own entry, the fields and members that it lists, and the stores found
at its places. What is declared of other classes afterwards changes none of these.
-/

namespace ObjectInit.Analysis

open DeclarationTable

universe u v

variable {V : Type u} {Q : Type v} {a : Analysis V} {t t' : DeclarationTable} {frame : Frame}
  {d : MemberDecl} {m : MemberId} {l : Location}

def withDeclarations (a : Analysis V) (t : DeclarationTable) : Analysis V :=
  { a with declarations := t }

@[simp] theorem declarations_withDeclarations (a : Analysis V) (t : DeclarationTable) :
    (a.withDeclarations t).declarations = t := rfl

@[simp] theorem oracle_withDeclarations (a : Analysis V) (t : DeclarationTable) :
    (a.withDeclarations t).oracle = a.oracle := rfl

@[simp] theorem options_withDeclarations (a : Analysis V) (t : DeclarationTable) :
    (a.withDeclarations t).options = a.options := rfl

@[simp] theorem results_withDeclarations (a : Analysis V) (t : DeclarationTable) :
    (a.withDeclarations t).results = a.results := rfl

/-! ## Entry stores -/

section Entry

variable (kept : t.KeepsClass t' frame) (hr : t.Reachable)

include kept hr

theorem entryStore_kept (options : Options) (declared : t.member? m = some d)
    (own : d.owner = frame) : t'.entryStore (V := V) options m = t.entryStore options m := by
  unfold entryStore
  rw [kept.extended.member? declared, declared]
  simp only [own, kept.fieldsOf_eq hr]

theorem assignedBy_kept (results : FlowResults V) (kind : MemberKind) :
    t'.assignedBy results frame kind = t.assignedBy results frame kind := by
  unfold assignedBy
  rw [kept.membersOfKind_eq hr]

theorem entryStoreAfterInitializers_kept (options : Options) (results : FlowResults V)
    (declared : t.member? m = some d) (own : d.owner = frame) :
    t'.entryStoreAfterInitializers options results m =
      t.entryStoreAfterInitializers options results m := by
  unfold entryStoreAfterInitializers
  rw [entryStore_kept kept hr options declared own, kept.extended.member? declared, declared]
  simp only [own, assignedBy_kept kept hr]

end Entry

section Kept

variable (kept : a.declarations.KeepsClass t frame) (hr : a.declarations.Reachable)

include kept hr

/-! ## Current objects and reads -/

theorem selfQualifierIn_kept (own : d.owner = frame) (l : Location) :
    (a.withDeclarations t).selfQualifierIn d l = a.selfQualifierIn d l := by
  have assigned : (a.withDeclarations t).ownFieldsAssigned d = a.ownFieldsAssigned d := by
    funext s
    simp only [ownFieldsAssigned, declarations_withDeclarations, own, kept.instanceFieldsOf_eq hr]
  have committed :
      (a.withDeclarations t).committedQualifier frame = a.committedQualifier frame := by
    simp only [committedQualifier, declarations_withDeclarations, kept.isFinalClass_eq]
  have uncommitted :
      (a.withDeclarations t).uncommittedQualifier frame = a.uncommittedQualifier frame := by
    simp only [uncommittedQualifier, oracle_withDeclarations]
  unfold selfQualifierIn
  simp only [own, assigned, committed, uncommitted, declarations_withDeclarations,
    results_withDeclarations, kept.allFieldsInitializedOnly_eq hr]

theorem selfQualifierAt_kept (declared : a.declarations.member? m = some d) (own : d.owner = frame)
    (inside : a.declarations.memberAt.get? l = some m) :
    (a.withDeclarations t).selfQualifierAt l = a.selfQualifierAt l := by
  have here : a.declarations.enclosingMember? l = some d := by
    unfold enclosingMember?
    rw [inside, Option.bind_some, declared]
  have there : t.enclosingMember? l = some d := by
    unfold enclosingMember?
    rw [kept.extended.memberAt inside, Option.bind_some, kept.extended.member? declared]
  unfold selfQualifierAt
  simp only [declarations_withDeclarations, options_withDeclarations, here, there,
    selfQualifierIn_kept kept hr own]

/-- The field that is read need not be one of the class. -/
theorem adaptAt_kept (declared : a.declarations.member? m = some d) (own : d.owner = frame)
    (inside : a.declarations.memberAt.get? l = some m) {access : FieldAccess} {f : FieldDecl}
    (field : a.declarations.field? access.field = some f) (system : QualifierSystem Q) :
    (a.withDeclarations t).adaptAt l access system = a.adaptAt l access system := by
  have same : t.field? access.field = a.declarations.field? access.field := by
    rw [field, kept.extended.field? field]
  have receiver : (a.withDeclarations t).receiverAt l access = a.receiverAt l access := by
    unfold receiverAt
    rw [selfQualifierAt_kept kept hr declared own inside]
  have known : (a.withDeclarations t).isKnownAssigned l access = a.isKnownAssigned l access := by
    simp only [isKnownAssigned, declarations_withDeclarations, results_withDeclarations, same]
  have unknown :
      (a.withDeclarations t).declaredUnknown access.field = a.declaredUnknown access.field := by
    simp only [declaredUnknown, declarations_withDeclarations, same]
  have covers (q : Qualifier) :
      (a.withDeclarations t).coversOwner q access.field = a.coversOwner q access.field := by
    simp only [coversOwner, oracle_withDeclarations]
  unfold adaptAt adapt
  simp only [receiver, known, unknown, covers, options_withDeclarations]

/-! ## Findings -/

theorem constructorFinding?_kept (declared : a.declarations.member? m = some d)
    (own : d.owner = frame) :
    (a.withDeclarations t).constructorFinding? m = a.constructorFinding? m := by
  have unassigned (exit : Store V) : (a.withDeclarations t).unassignedByConstructor d exit =
      a.unassignedByConstructor d exit := by
    simp only [unassignedByConstructor, declarations_withDeclarations, options_withDeclarations,
      own, kept.instanceFieldsOf_eq hr]
  unfold constructorFinding?
  simp only [declarations_withDeclarations, options_withDeclarations, results_withDeclarations,
    kept.extended.member? declared, declared]
  cases a.results.exitStore? m with
  | none => rfl
  | some exit => simp only [unassigned]

theorem defaultConstructorFinding?_kept :
    (a.withDeclarations t).defaultConstructorFinding? frame =
      a.defaultConstructorFinding? frame := by
  have unassigned :
      (a.withDeclarations t).unassignedByDefault frame = a.unassignedByDefault frame := by
    simp only [unassignedByDefault, declarations_withDeclarations, options_withDeclarations,
      results_withDeclarations, assignedBy_kept kept hr, kept.instanceFieldsOf_eq hr]
  unfold defaultConstructorFinding?
  simp only [unassigned, declarations_withDeclarations, kept.class?_eq]

theorem staticFinding?_kept :
    (a.withDeclarations t).staticFinding? frame = a.staticFinding? frame := by
  have unassigned :
      (a.withDeclarations t).unassignedStatics frame = a.unassignedStatics frame := by
    simp only [unassignedStatics, declarations_withDeclarations, options_withDeclarations,
      results_withDeclarations, assignedBy_kept kept hr, kept.staticFieldsOf_eq hr]
  unfold staticFinding?
  rw [unassigned]
  cases failing : a.unassignedStatics frame with
  | nil => rfl
  | cons first rest =>
      -- The place may be that of the first field, which is declared since the class lists it.
      have listed : first ∈ a.candidates (.ofStatics frame) := by
        rw [candidates, failing]
        exact List.mem_cons_self
      obtain ⟨f, field, -⟩ := (mem_candidates_iff hr).mp listed
      have place :
          (a.withDeclarations t).staticLocation? frame first = a.staticLocation? frame first := by
        simp only [staticLocation?, declarations_withDeclarations, kept.membersOfKind_eq hr,
          kept.extended.field? field, field]
      simp only [place]

theorem classFindings_kept :
    (a.withDeclarations t).classFindings frame = a.classFindings frame := by
  have findings : ((a.declarations.membersOfKind frame .constructor).filterMap fun d =>
        (a.withDeclarations t).constructorFinding? d.id) =
      (a.declarations.membersOfKind frame .constructor).filterMap fun d =>
        a.constructorFinding? d.id := by
    refine List.filterMap_congr fun d hd => ?_
    obtain ⟨declared, own⟩ := hr.mem_membersOf_iff.mp (List.mem_filter.mp hd).1
    exact constructorFinding?_kept kept hr declared own
  unfold classFindings
  simp only [declarations_withDeclarations, options_withDeclarations, kept.membersOfKind_eq hr,
    findings, defaultConstructorFinding?_kept kept hr, staticFinding?_kept kept hr]

end Kept

/-- Whatever further requests declare of other classes, a class is analysed as before: its members
start with the same stores, at each of their places the current object has the same qualifier and a
read of a field that was declared is widened in the same way, and the check of the class records
the same findings. -/
theorem answers_eq_after_other_requests (a : Analysis V) (collected : a.declarations.Reachable)
    {frame : Frame} {requests : List Request}
    (others : ∀ r ∈ requests, r.subject? ≠ some frame) :
    let t := a.declarations.respondAll requests
    (∀ m d, a.declarations.member? m = some d → d.owner = frame →
      t.entryStore (V := V) a.options m = a.declarations.entryStore a.options m ∧
      t.entryStoreAfterInitializers a.options a.results m =
        a.declarations.entryStoreAfterInitializers a.options a.results m ∧
      ∀ l, a.declarations.memberAt.get? l = some m →
        (a.withDeclarations t).selfQualifierAt l = a.selfQualifierAt l ∧
        ∀ (Q : Type v) (system : QualifierSystem Q) (access : FieldAccess) (f : FieldDecl),
          a.declarations.field? access.field = some f →
            (a.withDeclarations t).adaptAt l access system = a.adaptAt l access system) ∧
    ∀ b, (a.withDeclarations t).checkClass frame b = a.checkClass frame b := by
  intro t
  have kept : a.declarations.KeepsClass t frame := keepsClass_respondAll _ others
  constructor
  · intro m d declared own
    refine ⟨entryStore_kept kept collected _ declared own,
      entryStoreAfterInitializers_kept kept collected _ _ declared own, fun l inside => ?_⟩
    refine ⟨selfQualifierAt_kept kept collected declared own inside, ?_⟩
    intro Q system access f field
    exact adaptAt_kept kept collected declared own inside field system
  · intro b
    unfold checkClass
    rw [classFindings_kept kept collected]

/-- A class with a field of the same name, an initializer that gets the next number, and an object
created in the constructor of the first class. Two requests take places that are taken. -/
def neighbour : List Request :=
  [.declareClass ⟨2⟩ ⟨5⟩ ⟨20⟩ true, .declareField { id := ⟨⟨2⟩, ⟨4⟩⟩, location := ⟨21⟩ },
    .declareMember ⟨2⟩ .constructor ⟨13⟩ none, .declareMember ⟨2⟩ .instanceInitializer ⟨22⟩ none,
    .registerLocation ⟨14⟩ ⟨1⟩, .registerLocation ⟨23⟩ ⟨0⟩,
    .setEnclosingSite ⟨2⟩ ⟨⟨14⟩, true⟩]

/-- The constructor of the first class assigns nothing, and the initializer of the other one assigns
the field of the first. -/
def neighboured : Analysis TrackedValue :=
  let entry := pairTable.entryStore {} ⟨0⟩
  let a := pairAnalysis entry
  { a with results := a.results.recordExit ⟨1⟩ (entry.mark ⟨⟨1⟩, ⟨4⟩⟩) }

/-- The other class is there with its member, and the first one still owes its field. -/
theorem answers_eq_after_other_requests_of_neighbour :
    let t := pairTable.respondAll neighbour
    let x : FieldId := ⟨⟨1⟩, ⟨4⟩⟩
    pairTable.Reachable ∧ (∀ r ∈ neighbour, r.subject? ≠ some ⟨1⟩) ∧
      (pairTable.members.size = 1 ∧ t.members.size = 2 ∧ t.memberAt.get? ⟨23⟩ = some ⟨0⟩) ∧
      t.entryStoreAfterInitializers {} neighboured.results ⟨0⟩ = pairTable.entryStore {} ⟨0⟩ ∧
      (neighboured.withDeclarations t).selfQualifierAt ⟨14⟩ = .under Hierarchy.root ∧
      (neighboured.withDeclarations t).adaptAt ⟨14⟩ (.ofSelf x) Nullness.qualifiers =
        some .nullable ∧
      (neighboured.withDeclarations t).checkClass ⟨1⟩ ∅ =
        ⟨[{ location := ⟨13⟩, fields := [x], key := Template.fieldsUninitialized }]⟩ := by
  intro t x
  have others : ∀ r ∈ neighbour, r.subject? ≠ some ⟨1⟩ := by decide
  obtain ⟨members, findings⟩ :=
    answers_eq_after_other_requests neighboured pairTable_reachable others
  obtain ⟨-, entry, places⟩ := members ⟨0⟩ ⟨⟨0⟩, ⟨1⟩, .constructor, ⟨13⟩, none⟩ rfl rfl
  obtain ⟨self, reads⟩ := places ⟨14⟩ rfl
  refine ⟨pairTable_reachable, others, by decide +kernel, entry.trans (by decide +kernel),
    self.trans (by decide +kernel), ?_, (findings ∅).trans (by decide +kernel)⟩
  exact (reads Nullness Nullness.qualifiers (.ofSelf x) _ rfl).trans (by decide +kernel)

end ObjectInit.Analysis
