import ObjectInit.Proofs.Declaration.Growth
import ObjectInit.Proofs.ExitCheck
import ObjectInit.Proofs.Flow.Built
import ObjectInit.Proofs.Report.Candidates
import ObjectInit.Report.Exemption
import ObjectInit.Report.Reporting

/-! # From a constructor to its diagnostic

One diagnostic names, in order of declaration, exactly the fields that the constructor owes. That a
field was exempt because of its known value cannot happen: what is not assigned at the constructor's
own end has no value there.
-/

namespace ObjectInit

universe u

namespace Analysis

variable {V : Type u} {a : Analysis V} {m : MemberId} {d : MemberDecl} {s : Store V}

/-- Must the constructor assign the field? It must, if its receiver uses the field, nothing else
sets it, the end of the constructor does not have it, and what is declared of it is an invariant. -/
def owes (a : Analysis V) (d : MemberDecl) (exit : Store V) (f : FieldDecl) : Bool :=
  !f.isUnusedFor d.declaredReceiver && !f.hasInitializer && !f.holdsForDefault &&
    !(f.isPrimitive && !a.options.checkPrimitives) && !exit.isInitialized f.id &&
    f.declaredInvariant

/-! ## The exemption -/

/-- At the end of a constructor an unassigned field is exempt only if nothing invariant is declared
of it. -/
theorem invariantExemption_of_unassigned [DecidableEq V] [AbstractValue V] {t : DeclarationTable}
    {f : FieldDecl} (field : t.field? f.id = some f) (ofObject : f.isStatic = false)
    (built : s.Built) (unassigned : s.isInitialized f.id = false) (satisfies : V → Bool) :
    invariantExemption t (some s) satisfies f.id = !f.declaredInvariant := by
  have hvalue : s.value? (.field .self f.id) = none := built.value?_eq_none rfl unassigned
  unfold invariantExemption
  rw [field]
  simp [FieldDecl.ownExpr, ofObject, hvalue]

theorem filter_unassignedByConstructor [DecidableEq V] [AbstractValue V]
    (collected : a.declarations.Reachable) (built : s.Built) (satisfies : V → Bool) :
    (a.unassignedByConstructor d s).filter
        (fun id => !invariantExemption a.declarations (some s) satisfies id) =
      ((a.declarations.instanceFieldsOf d.owner).filter (a.owes d s)).map (·.id) := by
  unfold unassignedByConstructor
  rw [List.filter_map, List.filter_filter, List.filter_filter]
  congr 1
  apply List.filter_congr
  intro f hf
  obtain ⟨hfield, hinstance⟩ := DeclarationTable.mem_instanceFieldsOf.mp hf
  have field := (collected.mem_fieldsOf_iff.mp hfield).1
  cases unassigned : s.isInitialized f.id with
  | true => simp [owes, unassigned]
  | false =>
      have hexempt := invariantExemption_of_unassigned field hinstance built unassigned satisfies
      simp only [Function.comp_apply, hexempt, owes, FieldDecl.needsNoAssignment, unassigned,
        Bool.not_not, Bool.not_false, Bool.and_true, Bool.not_or]
      rw [Bool.and_comm]

/-! ## The report -/

theorem relevantStore?_of_memberLocation (collected : a.declarations.Reachable)
    (declared : a.declarations.member? m = some d) {e : PendingError}
    (place : e.location = d.location) (atEnd : e.checkBefore = false) :
    e.relevantStore? a.declarations a.results = a.results.exitStore? m := by
  obtain ⟨hid, hplace⟩ := collected.membersPlaced m d declared
  unfold PendingError.relevantStore? DeclarationTable.enclosingMember?
  rw [atEnd, if_neg Bool.false_ne_true, place, hplace, Option.bind_some, declared,
    Option.bind_some, hid]

/-- Checking a constructor and reporting what was found at its place gives one diagnostic that
names exactly the fields that the constructor owes, in order of declaration, or none if it owes
nothing, whatever the values of its fields are. -/
theorem report_checkConstructor_eq [DecidableEq V] [AbstractValue V]
    (enabled : a.options.assumeInitialized = false) (collected : a.declarations.Reachable)
    (declared : a.declarations.member? m = some d) (exit : a.results.exitStore? m = some s)
    (built : s.Built) (names : NameTable) (satisfies : V → Bool) :
    let found := a.checkConstructor m ∅
    let store := (found.pending? d.location).bind fun e =>
      e.relevantStore? a.declarations a.results
    let owed := (a.declarations.instanceFieldsOf d.owner).filter (a.owes d s)
    (found.report (invariantExemption a.declarations store satisfies) Suppression.none
        a.declarations names d.location).1 =
      if owed = [] then []
      else [⟨.error, Template.fieldsUninitialized, d.location,
        "the constructor does not initialize fields: " ++
          ", ".intercalate (owed.map fun f => names.resolve f.id.name)⟩] := by
  intro found store owed
  have hleft : (a.unassignedByConstructor d s).filter
      (fun id => !invariantExemption a.declarations (some s) satisfies id) = owed.map (·.id) :=
    filter_unassignedByConstructor collected built satisfies
  have hfinding := constructorFinding?_eq enabled declared exit
  -- A finding may be recorded and then exempt as a whole; nothing recorded means nothing owed.
  by_cases hnothing : a.unassignedByConstructor d s = []
  · have hfound : found = ∅ := by
      show ErrorBuffer.recordAll ∅ (a.constructorFinding? m).toList = ∅
      rw [hfinding, if_pos hnothing]
      rfl
    have howed : owed = [] := by
      rw [hnothing] at hleft
      exact List.map_eq_nil_iff.mp hleft.symm
    rw [hfound, if_pos howed]
    rfl
  · let e : PendingError := ⟨d.location, a.unassignedByConstructor d s,
      Template.fieldsUninitialized, [], false, false⟩
    have hfound : found = ⟨[e]⟩ := by
      show ErrorBuffer.recordAll ∅ (a.constructorFinding? m).toList = _
      rw [hfinding, if_neg hnothing]
      rfl
    have hpending : found.pending? e.location = some e := by simp [hfound, ErrorBuffer.pending?]
    have hstore : store = some s := by
      show (found.pending? d.location).bind _ = _
      rw [hpending, Option.bind_some,
        relevantStore?_of_memberLocation collected declared rfl rfl, exit]
    have hremaining : e.remaining (invariantExemption a.declarations store satisfies)
        Suppression.none = owed.map (·.id) := by
      unfold PendingError.remaining
      rw [hstore, ← hleft]
      simp [Suppression.none, e]
    have hmessage := (ExitCheck.ofConstructor d).ofKey_key d.location
      (", ".intercalate (owed.map fun f => names.resolve f.id.name))
    have htold := ErrorBuffer.report_of_pending hpending
      (invariantExemption a.declarations store satisfies) Suppression.none a.declarations names
    rw [hremaining, PendingError.diagnostics_of_names rfl rfl] at htold
    simp only [List.map_eq_nil_iff, List.map_map] at htold
    refine (congrArg Prod.fst htold).trans ?_
    exact ite_congr rfl (fun _ => rfl) fun _ => congrArg (fun d => [d]) hmessage

/-- A class with three fields, the second without an invariant, and a constructor. -/
def pointTable : DeclarationTable :=
  let t := (DeclarationTable.empty.declareClass ⟨1⟩ ⟨2⟩ ⟨10⟩ false).2
  let t := (t.declareField { id := ⟨⟨1⟩, ⟨3⟩⟩, location := ⟨11⟩ }).2
  let t := (t.declareField
    { id := ⟨⟨1⟩, ⟨4⟩⟩, location := ⟨12⟩, declaredInvariant := false }).2
  let t := (t.declareField { id := ⟨⟨1⟩, ⟨5⟩⟩, location := ⟨13⟩ }).2
  (t.declareMember ⟨1⟩ .constructor ⟨14⟩ none).2

/-- One branch of the constructor assigns the first field, the other one the third. Both are named,
although each has a value on one branch and any value would exempt it. -/
theorem report_checkConstructor_eq_of_two_branches :
    let x : FlowExpr := .field .self ⟨⟨1⟩, ⟨3⟩⟩
    let z : FlowExpr := .field .self ⟨⟨1⟩, ⟨5⟩⟩
    let s : Store TrackedValue := ((∅ : Store TrackedValue).assign x (.tag 1)).merge
      (((∅ : Store TrackedValue).assign z (.tag 2)).mark ⟨⟨1⟩, ⟨4⟩⟩)
    let names : NameTable := ⟨#["", "Object", "Point", "x", "y", "z"]⟩
    let a : Analysis TrackedValue :=
      ⟨pointTable, (Hierarchy.withRoot ⟨1⟩).oracle, {}, FlowResults.empty.recordExit ⟨0⟩ s⟩
    let found := a.checkConstructor ⟨0⟩ ∅
    let store := (found.pending? ⟨14⟩).bind fun e => e.relevantStore? a.declarations a.results
    s.Built ∧
      (found.report (invariantExemption a.declarations store fun _ => true) Suppression.none
          a.declarations names ⟨14⟩).1 =
        [⟨.error, "initialization.fields.uninitialized", ⟨14⟩,
          "the constructor does not initialize fields: x, z"⟩] := by
  intro x z s names a found store
  have collected : pointTable.Reachable :=
    .declareMember _ _ _ _ (.declareField _ (.declareField _ (.declareField _
      (.declareClass _ _ _ _ .empty))))
  have built : s.Built := .merge (.assign _ _ .empty) (.mark _ (.assign _ _ .empty))
  have report := report_checkConstructor_eq (a := a) (m := ⟨0⟩) (s := s)
    (d := ⟨⟨0⟩, ⟨1⟩, .constructor, ⟨14⟩, none⟩) rfl collected rfl rfl built names fun _ => true
  exact ⟨built, report.trans (by decide)⟩

end Analysis

end ObjectInit
