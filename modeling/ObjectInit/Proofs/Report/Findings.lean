import Mathlib.Data.List.Forall2
import ObjectInit.Nullness
import ObjectInit.Proofs.Declaration.Members
import ObjectInit.Proofs.Declaration.Places
import ObjectInit.Proofs.Report.Buffer
import ObjectInit.Proofs.Report.Candidates

/-! # No finding is lost

The checks choose their places by different rules, yet the declaration at which a check reports
tells which check it was. So as long as declarations are at different places, findings are kept side
by side.
-/

namespace ObjectInit

universe u

namespace Analysis

variable {V : Type u} {a : Analysis V} {frame : Frame} {check : ExitCheck} {e : PendingError}

/-- The checks of a class: of its constructors, or of the implicit one if it has none, and of its
static fields. -/
def dueChecks (a : Analysis V) (frame : Frame) : List ExitCheck :=
  let constructors := a.declarations.membersOfKind frame .constructor
  (if constructors = [] then [.ofImplicitConstructor frame]
    else constructors.map .ofConstructor) ++ [.ofStatics frame]

def site? (a : Analysis V) : ExitCheck → Option Declaration
  | .ofConstructor d => some (.ofMember d.id)
  | .ofImplicitConstructor frame => some (.ofClass frame)
  | .ofStatics frame =>
    ((a.declarations.membersOfKind frame .staticInitializer).getLast?.map
        fun d => Declaration.ofMember d.id).or
      ((a.unassignedStatics frame).head?.map .ofField)

/-- The error is the one that the check records, at the place of the declaration that it chooses. -/
def Reports (a : Analysis V) (check : ExitCheck) (e : PendingError) : Prop :=
  ∃ site l, a.site? check = some site ∧ (site, l) ∈ a.declarations.places ∧ e = a.errorAt check l

def checkClasses (a : Analysis V) (frames : List Frame) (b : ErrorBuffer) : ErrorBuffer :=
  frames.foldl (fun b frame => a.checkClass frame b) b

def finding? (a : Analysis V) : ExitCheck → Option PendingError
  | .ofConstructor d => a.constructorFinding? d.id
  | .ofImplicitConstructor frame => a.defaultConstructorFinding? frame
  | .ofStatics frame => a.staticFinding? frame

/-! ## Due checks -/

theorem mem_dueChecks_cases (collected : a.declarations.Reachable)
    (due : check ∈ a.dueChecks frame) :
    (∃ d, check = .ofConstructor d ∧ a.declarations.member? d.id = some d ∧ d.owner = frame ∧
        d.kind = .constructor) ∨
      check = .ofImplicitConstructor frame ∨ check = .ofStatics frame := by
  unfold dueChecks at due
  cases List.mem_append.mp due with
  | inr statics => exact .inr (.inr (List.mem_singleton.mp statics))
  | inl objects =>
      split at objects
      · exact .inr (.inl (List.mem_singleton.mp objects))
      · obtain ⟨d, hd, rfl⟩ := List.mem_map.mp objects
        obtain ⟨hmember, hkind⟩ := List.mem_filter.mp hd
        obtain ⟨declared, owner⟩ := collected.mem_membersOf_iff.mp hmember
        exact .inl ⟨d, rfl, declared, owner, of_decide_eq_true hkind⟩

theorem frame_of_mem_dueChecks (collected : a.declarations.Reachable)
    (due : check ∈ a.dueChecks frame) : check.frame = frame := by
  obtain ⟨d, rfl, -, owner, -⟩ | rfl | rfl := mem_dueChecks_cases collected due
  · exact owner
  · rfl
  · rfl

theorem nodup_dueChecks (collected : a.declarations.Reachable) (frame : Frame) :
    (a.dueChecks frame).Nodup := by
  unfold dueChecks
  refine List.nodup_append.mpr ⟨?_, List.nodup_singleton _, ?_⟩
  · split
    · exact List.nodup_singleton _
    · exact ((collected.nodup_membersOf frame).filter _).map fun d d' same =>
        ExitCheck.ofConstructor.inj same
  · intro check objects check' statics
    rw [List.mem_singleton.mp statics]
    split at objects
    · rw [List.mem_singleton.mp objects]
      exact ExitCheck.noConfusion
    · obtain ⟨d, -, rfl⟩ := List.mem_map.mp objects
      exact ExitCheck.noConfusion

theorem nodup_flatMap_dueChecks (collected : a.declarations.Reachable) {frames : List Frame}
    (once : frames.Nodup) : (frames.flatMap a.dueChecks).Nodup := by
  refine List.nodup_flatMap.mpr ⟨fun frame _ => nodup_dueChecks collected frame, ?_⟩
  -- A check belongs to one class only.
  refine once.imp fun {frame frame'} different check due due' => different ?_
  rw [← frame_of_mem_dueChecks collected due, frame_of_mem_dueChecks collected due']

theorem classFindings_eq (enabled : a.options.assumeInitialized = false) (frame : Frame) :
    a.classFindings frame = (a.dueChecks frame).filterMap a.finding? := by
  unfold classFindings dueChecks
  rw [enabled, if_neg Bool.false_ne_true, List.filterMap_append]
  by_cases implicit : a.declarations.membersOfKind frame .constructor = []
  · simp only [implicit, List.isEmpty_nil, if_true]
    rfl
  · simp only [implicit, List.isEmpty_iff, if_false, List.filterMap_map]
    rfl

/-! ## Findings -/

/-- A check without candidates finds nothing, and any other one finds what it reports. -/
def Settled (a : Analysis V) (check : ExitCheck) : Prop :=
  a.finding? check = none ∧ a.candidates check = [] ∨
    ∃ e, a.finding? check = some e ∧ a.candidates check ≠ [] ∧ a.Reports check e

theorem Settled.finding?_eq_none_iff (settled : a.Settled check) :
    a.finding? check = none ↔ a.candidates check = [] := by
  obtain ⟨hnone, nothing⟩ | ⟨e, hsome, some, -⟩ := settled
  · simp [hnone, nothing]
  · simp [hsome, some]

theorem settled_ofConstructor (enabled : a.options.assumeInitialized = false) {d : MemberDecl}
    (declared : a.declarations.member? d.id = some d) : a.Settled (.ofConstructor d) := by
  unfold Settled
  show a.constructorFinding? d.id = none ∧ _ ∨ ∃ e, a.constructorFinding? d.id = some e ∧ _
  cases exit : a.results.exitStore? d.id with
  | none =>
      have hfinding : a.constructorFinding? d.id = none := by simp [constructorFinding?, exit]
      exact .inl ⟨hfinding, candidates_of_no_exit exit⟩
  | some s =>
      rw [constructorFinding?_eq enabled declared exit, ← candidates_of_exit exit]
      by_cases nothing : a.candidates (.ofConstructor d) = []
      · exact .inl ⟨if_pos nothing, nothing⟩
      · exact .inr ⟨_, if_neg nothing, nothing, _, _, rfl,
          DeclarationTable.ofMember_mem_places declared, rfl⟩

theorem settled_ofImplicitConstructor (frame : Frame) :
    a.Settled (.ofImplicitConstructor frame) := by
  unfold Settled
  show a.defaultConstructorFinding? frame = none ∧ a.unassignedByDefault frame = [] ∨
    ∃ e, a.defaultConstructorFinding? frame = some e ∧ a.unassignedByDefault frame ≠ [] ∧ _
  cases declared : a.declarations.class? frame with
  | none =>
      refine .inl ⟨?_, unassignedByDefault_of_undeclared declared⟩
      simp only [defaultConstructorFinding?, declared]
  | some c =>
      rw [defaultConstructorFinding?_eq declared]
      by_cases nothing : a.unassignedByDefault frame = []
      · exact .inl ⟨if_pos nothing, nothing⟩
      · exact .inr ⟨_, if_neg nothing, nothing, _, _, rfl,
          DeclarationTable.ofClass_mem_places declared, rfl⟩

/-- There is a place for a finding about static fields: if no static initializer has one, then the
first of the fields. -/
theorem site_of_statics (collected : a.declarations.Reachable) {first : FieldId}
    {rest : List FieldId} (failing : a.unassignedStatics frame = first :: rest) :
    ∃ site l, a.site? (.ofStatics frame) = some site ∧ (site, l) ∈ a.declarations.places ∧
      a.staticLocation? frame first = some l := by
  unfold site? staticLocation?
  dsimp only
  cases last : (a.declarations.membersOfKind frame .staticInitializer).getLast? with
  | some d =>
      have hd := (List.mem_filter.mp (List.mem_of_getLast? last)).1
      have declared := (collected.mem_membersOf_iff.mp hd).1
      exact ⟨_, _, rfl, DeclarationTable.ofMember_mem_places declared, rfl⟩
  | none =>
      have unassigned : first ∈ a.candidates (.ofStatics frame) := by
        rw [candidates, failing]
        exact List.mem_cons_self
      obtain ⟨f, declared, -⟩ := (mem_candidates_iff collected).mp unassigned
      refine ⟨.ofField first, f.location, ?_, DeclarationTable.ofField_mem_places declared, ?_⟩
      · rw [failing]
        rfl
      · rw [declared]
        rfl

theorem settled_ofStatics (collected : a.declarations.Reachable) (frame : Frame) :
    a.Settled (.ofStatics frame) := by
  unfold Settled
  show a.staticFinding? frame = none ∧ a.unassignedStatics frame = [] ∨
    ∃ e, a.staticFinding? frame = some e ∧ a.unassignedStatics frame ≠ [] ∧ _
  cases failing : a.unassignedStatics frame with
  | nil =>
      refine .inl ⟨?_, rfl⟩
      simp only [staticFinding?, failing]
  | cons first rest =>
      obtain ⟨site, l, hsite, hplace, hlocation⟩ := site_of_statics collected failing
      have hfinding : a.staticFinding? frame = some (a.errorAt (.ofStatics frame) l) := by
        simp only [staticFinding?, failing, hlocation, Option.map_some, errorAt, candidates]
        rfl
      exact .inr ⟨_, hfinding, List.cons_ne_nil _ _, site, l, hsite, hplace, rfl⟩

theorem settled_of_due (enabled : a.options.assumeInitialized = false)
    (collected : a.declarations.Reachable) (due : check ∈ a.dueChecks frame) :
    a.Settled check := by
  obtain ⟨d, rfl, declared, -, -⟩ | rfl | rfl := mem_dueChecks_cases collected due
  · exact settled_ofConstructor enabled declared
  · exact settled_ofImplicitConstructor frame
  · exact settled_ofStatics collected frame

/-! ## Sites -/

def checkAt? (a : Analysis V) : Declaration → Option ExitCheck
  | .ofClass frame => some (.ofImplicitConstructor frame)
  | .ofField id => some (.ofStatics id.owner)
  | .ofMember m => (a.declarations.member? m).map fun d =>
      if d.kind = .constructor then .ofConstructor d else .ofStatics d.owner

theorem checkAt?_of_site (collected : a.declarations.Reachable) (due : check ∈ a.dueChecks frame)
    {site : Declaration} (hsite : a.site? check = some site) : a.checkAt? site = some check := by
  -- A constructor is no static initializer, and both know their class, as fields do.
  obtain ⟨d, rfl, declared, -, constructor⟩ | rfl | rfl := mem_dueChecks_cases collected due
  · cases hsite
    simp only [checkAt?, declared, Option.map_some, constructor, if_true]
  · cases hsite
    rfl
  · unfold site? at hsite
    dsimp only at hsite
    cases last : (a.declarations.membersOfKind frame .staticInitializer).getLast? with
    | some d =>
        rw [last] at hsite
        cases hsite
        obtain ⟨hmember, hkind⟩ := List.mem_filter.mp (List.mem_of_getLast? last)
        obtain ⟨declared, owner⟩ := collected.mem_membersOf_iff.mp hmember
        have kind : d.kind = .staticInitializer := of_decide_eq_true hkind
        simp [checkAt?, declared, kind, owner]
    | none =>
        rw [last, Option.map_none, Option.none_or, Option.map_eq_some_iff] at hsite
        obtain ⟨first, hfirst, rfl⟩ := hsite
        have unassigned : first ∈ a.candidates (.ofStatics frame) := List.mem_of_head? hfirst
        obtain ⟨-, -, owner, -⟩ := (mem_candidates_iff collected).mp unassigned
        simp only [checkAt?, owner]
        rfl

theorem eq_of_reports_at_same (collected : a.declarations.Reachable)
    (apart : a.declarations.Apart) {frame' : Frame} {check' : ExitCheck} {e' : PendingError}
    (due : check ∈ a.dueChecks frame) (due' : check' ∈ a.dueChecks frame')
    (reports : a.Reports check e) (reports' : a.Reports check' e')
    (same : e.location = e'.location) : check = check' := by
  obtain ⟨site, l, hsite, hplace, rfl⟩ := reports
  obtain ⟨site', l', hsite', hplace', rfl⟩ := reports'
  obtain rfl : l = l' := same
  obtain rfl : site = site' := apart.eq_of_mem hplace hplace'
  have hcheck := checkAt?_of_site collected due hsite
  have hcheck' := checkAt?_of_site collected due' hsite'
  exact Option.some.inj (hcheck.symm.trans hcheck')

/-! ## Runs -/

theorem checkClasses_eq_recordAll (frames : List Frame) (b : ErrorBuffer) :
    a.checkClasses frames b = b.recordAll (frames.flatMap a.classFindings) := by
  induction frames generalizing b with
  | nil => rfl
  | cons frame rest ih =>
      have hfirst : a.checkClasses (frame :: rest) b = a.checkClasses rest (a.checkClass frame b) :=
        rfl
      rw [hfirst, ih, List.flatMap_cons, ErrorBuffer.recordAll_append]
      rfl

theorem checkClasses_eq_recordAll_due (enabled : a.options.assumeInitialized = false)
    (frames : List Frame) (b : ErrorBuffer) :
    a.checkClasses frames b = b.recordAll ((frames.flatMap a.dueChecks).filterMap a.finding?) := by
  have hfindings : a.classFindings = fun frame => (a.dueChecks frame).filterMap a.finding? :=
    funext (classFindings_eq enabled)
  rw [checkClasses_eq_recordAll, hfindings, List.filterMap_flatMap]

theorem forall₂_reports (enabled : a.options.assumeInitialized = false)
    (collected : a.declarations.Reachable) {checks : List ExitCheck}
    (due : ∀ check ∈ checks, ∃ frame, check ∈ a.dueChecks frame) :
    List.Forall₂ a.Reports (checks.filter fun check => a.candidates check ≠ [])
      (checks.filterMap a.finding?) := by
  induction checks with
  | nil => exact .nil
  | cons check rest ih =>
      obtain ⟨frame, hdue⟩ := due check List.mem_cons_self
      have hrest := ih fun other hother => due other (List.mem_cons_of_mem check hother)
      obtain ⟨hfinding, hnothing⟩ | ⟨e, hfinding, hsome, reports⟩ :=
        settled_of_due enabled collected hdue
      · rw [List.filterMap_cons_none hfinding, List.filter_cons_of_neg (by simp [hnothing])]
        exact hrest
      · rw [List.filterMap_cons_some hfinding, List.filter_cons_of_pos (by simp [hsome])]
        exact .cons reports hrest

theorem nodup_locations_findings (enabled : a.options.assumeInitialized = false)
    (collected : a.declarations.Reachable) (apart : a.declarations.Apart)
    {checks : List ExitCheck} (once : checks.Nodup)
    (due : ∀ check ∈ checks, ∃ frame, check ∈ a.dueChecks frame) :
    ((checks.filterMap a.finding?).map (·.location)).Nodup := by
  have reported : ∀ check ∈ checks, ∀ e, a.finding? check = some e → a.Reports check e := by
    intro check hcheck e he
    obtain ⟨frame, hdue⟩ := due check hcheck
    obtain ⟨hnone, -⟩ | ⟨e', he', -, reports⟩ := settled_of_due enabled collected hdue
    · rw [hnone] at he
      cases he
    · rw [he'] at he
      cases he
      exact reports
  rw [List.Nodup, List.pairwise_map, List.pairwise_filterMap]
  refine once.imp_of_mem ?_
  intro check check' hcheck hcheck' different e he e' he' same
  obtain ⟨frame, hdue⟩ := due check hcheck
  obtain ⟨frame', hdue'⟩ := due check' hcheck'
  exact different (eq_of_reports_at_same collected apart hdue hdue'
    (reported check hcheck e he) (reported check' hcheck' e' he') same)

/-- Where declarations are at different places, the checks of any classes leave in an empty buffer
one finding for each check that fails, each at a place of its own, and nothing else. To check the
classes once more changes nothing. -/
theorem checkClasses_loses_nothing (enabled : a.options.assumeInitialized = false)
    (collected : a.declarations.Reachable) (apart : a.declarations.Apart) {frames : List Frame}
    (once : frames.Nodup) :
    let failing := (frames.flatMap a.dueChecks).filter fun check => a.candidates check ≠ []
    let found := a.checkClasses frames ∅
    failing.Nodup ∧ List.Forall₂ a.Reports failing found.errors ∧ found.locations.Nodup ∧
      a.checkClasses frames found = found := by
  intro failing found
  have hchecks := nodup_flatMap_dueChecks collected once
  have due : ∀ check ∈ frames.flatMap a.dueChecks, ∃ frame, check ∈ a.dueChecks frame := by
    intro check hcheck
    obtain ⟨frame, -, hdue⟩ := List.mem_flatMap.mp hcheck
    exact ⟨frame, hdue⟩
  have hlocations := nodup_locations_findings enabled collected apart hchecks due
  have hfound : found.errors = (frames.flatMap a.dueChecks).filterMap a.finding? := by
    show (a.checkClasses frames ∅).errors = _
    rw [checkClasses_eq_recordAll_due enabled]
    exact ErrorBuffer.errors_recordAll_of_apart hlocations
  have hnodup : found.locations.Nodup := by
    show (found.errors.map (·.location)).Nodup
    rw [hfound]
    exact hlocations
  refine ⟨hchecks.filter _, ?_, hnodup, ?_⟩
  · rw [hfound]
    exact forall₂_reports enabled collected due
  · rw [checkClasses_eq_recordAll_due enabled]
    refine ErrorBuffer.recordAll_of_mem hnodup ?_
    intro e he
    rw [hfound]
    exact he

/-- A class with two constructors and a static initializer, and one without members. Both have an
instance field and a static field. -/
def shopTable : DeclarationTable :=
  let t := (DeclarationTable.empty.declareClass ⟨1⟩ ⟨2⟩ ⟨10⟩ false).2
  let t := (t.declareClass ⟨2⟩ ⟨3⟩ ⟨20⟩ false).2
  let t := (t.declareField { id := ⟨⟨1⟩, ⟨4⟩⟩, location := ⟨11⟩ }).2
  let t := (t.declareField { id := ⟨⟨1⟩, ⟨5⟩⟩, location := ⟨12⟩, isStatic := true }).2
  let t := (t.declareField { id := ⟨⟨2⟩, ⟨4⟩⟩, location := ⟨21⟩ }).2
  let t := (t.declareField { id := ⟨⟨2⟩, ⟨5⟩⟩, location := ⟨22⟩, isStatic := true }).2
  let t := (t.declareMember ⟨1⟩ .constructor ⟨13⟩ none).2
  let t := (t.declareMember ⟨1⟩ .constructor ⟨14⟩ none).2
  (t.declareMember ⟨1⟩ .staticInitializer ⟨15⟩ none).2

/-- The second constructor never ends regularly. All other checks fail. -/
theorem checkClasses_loses_nothing_of_two_classes :
    let a : Analysis TrackedValue := ⟨shopTable, (Hierarchy.withRoot ⟨1⟩).oracle, {},
      (FlowResults.empty.recordExit ⟨0⟩ ∅).recordExit ⟨2⟩ ∅⟩
    let found := a.checkClasses [⟨2⟩, ⟨1⟩] ∅
    List.Forall₂ a.Reports
        [.ofImplicitConstructor ⟨2⟩, .ofStatics ⟨2⟩,
          .ofConstructor ⟨⟨0⟩, ⟨1⟩, .constructor, ⟨13⟩, none⟩, .ofStatics ⟨1⟩] found.errors ∧
      found.locations = [⟨20⟩, ⟨22⟩, ⟨13⟩, ⟨15⟩] ∧ a.checkClasses [⟨2⟩, ⟨1⟩] found = found := by
  intro a found
  have collected : shopTable.Reachable :=
    .declareMember _ _ _ _ (.declareMember _ _ _ _ (.declareMember _ _ _ _
      (.declareField _ (.declareField _ (.declareField _ (.declareField _
        (.declareClass _ _ _ _ (.declareClass _ _ _ _ .empty))))))))
  have apart : shopTable.Apart := by decide
  have once : ([⟨2⟩, ⟨1⟩] : List Frame).Nodup := by decide
  obtain ⟨-, reports, -, again⟩ := checkClasses_loses_nothing (a := a) rfl collected apart once
  have failing : (([⟨2⟩, ⟨1⟩] : List Frame).flatMap a.dueChecks).filter
      (fun check => a.candidates check ≠ []) =
        [.ofImplicitConstructor ⟨2⟩, .ofStatics ⟨2⟩,
          .ofConstructor ⟨⟨0⟩, ⟨1⟩, .constructor, ⟨13⟩, none⟩, .ofStatics ⟨1⟩] := by decide
  rw [failing] at reports
  exact ⟨reports, by decide, again⟩

end Analysis

end ObjectInit
