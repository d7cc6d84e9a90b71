import ObjectInit.Data.FirstOccurrence
import ObjectInit.Proofs.Report.Buffer
import ObjectInit.Proofs.Report.Diagnostics

/-! # Findings are neither lost nor told twice

What becomes of a finding is decided by the first later call that records or reports at its place:
it is replaced or it is told, and until then it is pending.
-/

namespace ObjectInit

/-! ## Calls -/

inductive BufferCall
  | record (e : PendingError)
  | report (l : Location)
  | reportAll

inductive Fate
  | pending
  | replaced
  | told
deriving DecidableEq

namespace BufferCall

def finding? : BufferCall → Option PendingError
  | record e => some e
  | report _ | reportAll => none

def reportsAt (l : Location) : BufferCall → Bool
  | record _ => false
  | report l' => l' = l
  | reportAll => true

/-- What calls make of a finding that is pending at a place: the first one that records or reports
there decides. -/
def fate (l : Location) : List BufferCall → Fate
  | [] => .pending
  | record e :: later => if e.location = l then .replaced else fate l later
  | report l' :: later => if l' = l then .told else fate l later
  | reportAll :: _ => .told

/-- The findings that calls record and that come to a given fate, in order. -/
def recorded (f : Fate) : List BufferCall → List PendingError
  | [] => []
  | record e :: later =>
    if fate e.location later = f then e :: recorded f later else recorded f later
  | report _ :: later | reportAll :: later => recorded f later

/-- The places at which calls record and do not report afterwards, in order. -/
def unreported : List BufferCall → List Location
  | [] => []
  | record e :: later =>
    if later.any (reportsAt e.location) then unreported later else e.location :: unreported later
  | report _ :: later | reportAll :: later => unreported later

theorem fate_concat (l : Location) (calls : List BufferCall) (c : BufferCall) :
    fate l (calls ++ [c]) = if fate l calls = .pending then fate l [c] else fate l calls := by
  induction calls with
  | nil => rfl
  | cons c' later ih =>
      cases c' with
      | record e => by_cases here : e.location = l <;> simp [fate, here, ih]
      | report l' => by_cases here : l' = l <;> simp [fate, here, ih]
      | reportAll => rfl

/-- One more call leaves those findings pending that it does not reach, and the one it records. -/
theorem recorded_pending_concat (calls : List BufferCall) (c : BufferCall) :
    recorded .pending (calls ++ [c]) =
      (recorded .pending calls).filter (fun e => fate e.location [c] = .pending) ++
        c.finding?.toList := by
  induction calls with
  | nil => cases c <;> rfl
  | cons c' later ih =>
      cases c' with
      | report | reportAll => exact ih
      | record e =>
          rw [List.cons_append]
          unfold recorded
          rw [fate_concat, ih]
          by_cases waits : fate e.location later = .pending
          · by_cases stays : fate e.location [c] = .pending <;> simp [waits, stays]
          · simp [waits]

/-- One more call brings those pending findings to another fate that it reaches, and no others. -/
theorem recorded_concat_perm {f : Fate} (settled : f ≠ .pending) (calls : List BufferCall)
    (c : BufferCall) :
    (recorded f (calls ++ [c])).Perm
      (recorded f calls ++
        (recorded .pending calls).filter fun e => fate e.location [c] = f) := by
  induction calls with
  | nil => cases c <;> simp [recorded, fate, Ne.symm settled]
  | cons c' later ih =>
      cases c' with
      | report | reportAll => exact ih
      | record e =>
          rw [List.cons_append]
          unfold recorded
          rw [fate_concat]
          by_cases waits : fate e.location later = .pending
          · have notYet : fate e.location later ≠ f := waits ▸ Ne.symm settled
            rw [if_pos waits, if_pos waits, if_neg notYet]
            by_cases comes : fate e.location [c] = f
            · rw [if_pos comes, List.filter_cons_of_pos (by simp [comes])]
              exact (ih.cons e).trans List.perm_middle.symm
            · rw [if_neg comes, List.filter_cons_of_neg (by simp [comes])]
              exact ih
          · rw [if_neg waits, if_neg waits]
            split
            · exact ih.cons e
            · exact ih

theorem findings_perm (calls : List BufferCall) :
    (calls.filterMap finding?).Perm
      (recorded .pending calls ++ (recorded .replaced calls ++ recorded .told calls)) := by
  induction calls with
  | nil => exact .nil
  | cons c later ih =>
      cases c with
      | report | reportAll => exact ih
      | record e =>
          show (e :: later.filterMap finding?).Perm _
          unfold recorded
          cases fate e.location later with
          | pending => exact ih.cons e
          | replaced => exact (ih.cons e).trans List.perm_middle.symm
          | told =>
              refine (ih.cons e).trans ?_
              rw [if_neg (by decide), if_neg (by decide), if_pos rfl, ← List.append_assoc,
                ← List.append_assoc]
              exact List.perm_middle.symm

theorem unreported_concat (calls : List BufferCall) (c : BufferCall) :
    unreported (calls ++ [c]) =
      (unreported calls).filter (fun l => !c.reportsAt l) ++
        (c.finding?.map (·.location)).toList := by
  induction calls with
  | nil => cases c <;> rfl
  | cons c' later ih =>
      cases c' with
      | report | reportAll => exact ih
      | record e =>
          rw [List.cons_append]
          unfold unreported
          rw [List.any_append, ih]
          by_cases closed : later.any (reportsAt e.location) = true
          · simp [closed]
          · by_cases reports : c.reportsAt e.location = true <;> simp [closed, reports]

end BufferCall

/-! ## Answers -/

structure Reporter where
  isExempt : FieldId → Bool
  suppression : Suppression
  declarations : DeclarationTable
  names : NameTable

namespace Reporter

open BufferCall

variable (r : Reporter) (b : ErrorBuffer)

def diagnose (e : PendingError) : List Diagnostic :=
  e.diagnostics (e.remaining r.isExempt r.suppression) r.declarations r.names

theorem diagnose_eq_nil_iff {e : PendingError} : r.diagnose e = [] ↔
    ∀ f ∈ e.fields, r.suppression f e.key = true ∨ r.isExempt f = true :=
  PendingError.diagnostics_eq_nil_iff.trans PendingError.remaining_eq_nil_iff

def report (l : Location) : List Diagnostic × ErrorBuffer :=
  b.report r.isExempt r.suppression r.declarations r.names l

def reportEach (ls : List Location) : List Diagnostic × ErrorBuffer :=
  b.reportEach r.isExempt r.suppression r.declarations r.names ls

def reportAll : List Diagnostic × ErrorBuffer :=
  b.reportAll r.isExempt r.suppression r.declarations r.names

def answer (b : ErrorBuffer) : BufferCall → List Diagnostic × ErrorBuffer
  | .record e => ([], b.record e)
  | .report l => r.report b l
  | .reportAll => r.reportAll b

/-- A new buffer after several calls, with all that they tell. -/
def answerAll (calls : List BufferCall) : List Diagnostic × ErrorBuffer :=
  calls.foldl (fun s c => ((s.1 ++ (r.answer s.2 c).1), (r.answer s.2 c).2)) ([], ∅)

theorem answerAll_concat (calls : List BufferCall) (c : BufferCall) :
    r.answerAll (calls ++ [c]) =
      ((r.answerAll calls).1 ++ (r.answer (r.answerAll calls).2 c).1,
        (r.answer (r.answerAll calls).2 c).2) := by
  unfold answerAll
  rw [List.foldl_append]
  rfl

/-! ## One place -/

theorem report_snd (l : Location) : (r.report b l).2 = b.drop l := by
  unfold report ErrorBuffer.report
  cases found : b.pending? l with
  | some e => rfl
  | none =>
      have nothing := List.find?_eq_none.mp found
      have all : b.errors.filter (·.location ≠ l) = b.errors := by
        rw [List.filter_eq_self]
        intro e he
        simpa using nothing e he
      show b = ⟨b.errors.filter (·.location ≠ l)⟩
      rw [all]

theorem report_fst (l : Location) :
    (r.report b l).1 = (b.pending? l).toList.flatMap r.diagnose := by
  unfold report ErrorBuffer.report
  cases b.pending? l with
  | none => rfl
  | some e => exact (List.append_nil _).symm

/-! ## Several places -/

theorem locations_drop (l : Location) : (b.drop l).locations = b.locations.filter (· ≠ l) := by
  unfold ErrorBuffer.drop ErrorBuffer.locations
  rw [List.filter_map]
  rfl

theorem report_drop_fst {l l' : Location} (other : l' ≠ l) :
    (r.report (b.drop l) l').1 = (r.report b l').1 := by
  have same : (b.drop l).pending? l' = b.pending? l' := by
    unfold ErrorBuffer.drop ErrorBuffer.pending?
    rw [List.find?_filter]
    congr 1
    funext e
    by_cases there : e.location = l'
    · simp [there, other]
    · simp [there]
  rw [report_fst, report_fst, same]

theorem reportEach_cons (l : Location) (ls : List Location) :
    r.reportEach b (l :: ls) =
      ((r.report b l).1 ++ (r.reportEach (b.drop l) ls).1, (r.reportEach (b.drop l) ls).2) := by
  rw [← r.report_snd b l]
  rfl

theorem reportEach_snd (ls : List Location) :
    (r.reportEach b ls).2.errors = b.errors.filter (·.location ∉ ls) := by
  induction ls generalizing b with
  | nil => exact (List.filter_eq_self.mpr fun _ _ => rfl).symm
  | cons l ls ih =>
      rw [reportEach_cons, ih, ErrorBuffer.drop, List.filter_filter]
      refine List.filter_congr fun e _ => ?_
      simp [not_or, Bool.and_comm]

theorem reportEach_fst {ls : List Location} (once : ls.Nodup) :
    (r.reportEach b ls).1 = ls.flatMap fun l => (r.report b l).1 := by
  induction ls generalizing b with
  | nil => rfl
  | cons l ls ih =>
      obtain ⟨fresh, once⟩ := List.nodup_cons.mp once
      have later : ls.flatMap (fun l' => (r.report (b.drop l) l').1) =
          ls.flatMap fun l' => (r.report b l').1 :=
        List.flatMap_congr fun l' hl' => r.report_drop_fst b fun same => fresh (same ▸ hl')
      rw [reportEach_cons, List.flatMap_cons, ih (b.drop l) once, later]

theorem reportEach_perm_fst {ls : List Location} (apart : b.locations.Nodup)
    (all : ls.Perm b.locations) : (r.reportEach b ls).1.Perm (r.reportAll b).1 := by
  rw [reportEach_fst r b (all.nodup_iff.mpr apart)]
  have hall : (r.reportAll b).1 = b.locations.flatMap fun l => (r.report b l).1 :=
    r.reportEach_fst b apart
  rw [hall]
  exact all.flatMap_right _

theorem reportEach_perm_snd {ls : List Location} (all : ls.Perm b.locations) :
    (r.reportEach b ls).2 = ∅ := by
  have nothing : (r.reportEach b ls).2.errors = [] := by
    rw [reportEach_snd, List.filter_eq_nil_iff]
    intro e he
    have listed : e.location ∈ ls := all.mem_iff.mpr (List.mem_map_of_mem he)
    simp [listed]
  exact congrArg ErrorBuffer.mk nothing

theorem reportAll_fst {b : ErrorBuffer} (apart : b.locations.Nodup) :
    (r.reportAll b).1 = b.errors.flatMap r.diagnose := by
  have hall : (r.reportAll b).1 = b.locations.flatMap fun l => (r.report b l).1 :=
    r.reportEach_fst b apart
  rw [hall, ErrorBuffer.locations, List.flatMap_map]
  refine List.flatMap_congr fun e he => ?_
  rw [report_fst, ErrorBuffer.pending?_of_mem apart he]
  exact List.append_nil _

/-! ## Runs -/

theorem locations_answerAll (calls : List BufferCall) :
    (r.answerAll calls).2.locations = (unreported calls).eraseDups := by
  induction calls using List.reverseRecOn with
  | nil => rfl
  | append_singleton calls c ih =>
      rw [answerAll_concat, unreported_concat]
      cases c with
      | record e =>
          have all : (unreported calls).filter (fun l => !(BufferCall.record e).reportsAt l) =
              unreported calls := List.filter_eq_self.mpr fun _ _ => rfl
          rw [all]
          show ((r.answerAll calls).2.record e).locations =
            (unreported calls ++ [e.location]).eraseDups
          rw [ErrorBuffer.locations_record, ih, eraseDups_concat]
          simp only [List.mem_eraseDups]
      | report l =>
          show (r.report (r.answerAll calls).2 l).2.locations = _
          rw [report_snd, locations_drop, ih, ← eraseDups_filter]
          simp [BufferCall.finding?, reportsAt, eq_comm]
      | reportAll =>
          show (r.reportAll (r.answerAll calls).2).2.locations = _
          have nothing : (r.reportAll (r.answerAll calls).2).2 = ∅ :=
            r.reportEach_perm_snd _ (.refl _)
          rw [nothing]
          simp [BufferCall.finding?, reportsAt]
          rfl

theorem nodup_locations_answerAll (calls : List BufferCall) :
    (r.answerAll calls).2.locations.Nodup := by
  rw [locations_answerAll]
  exact nodup_eraseDups _

theorem answer_snd_perm {b : ErrorBuffer} (apart : b.locations.Nodup) (c : BufferCall) :
    (r.answer b c).2.errors.Perm
      (b.errors.filter (fun e => fate e.location [c] = .pending) ++ c.finding?.toList) := by
  cases c with
  | record e =>
      have kept : b.errors.filter (fun e' => fate e'.location [.record e] = .pending) =
          b.errors.filter (fun e' => e'.location ≠ e.location) := by
        refine List.filter_congr fun e' _ => ?_
        by_cases here : e.location = e'.location <;> simp [fate, here, Ne.symm]
      rw [kept]
      exact ErrorBuffer.put_perm apart
  | report l =>
      have kept : b.errors.filter (fun e => fate e.location [.report l] = .pending) =
          b.errors.filter (fun e => e.location ≠ l) := by
        refine List.filter_congr fun e _ => ?_
        by_cases here : l = e.location <;> simp [fate, here, Ne.symm]
      have dropped : (r.answer b (.report l)).2 = b.drop l := r.report_snd b l
      rw [kept, dropped]
      exact .of_eq (List.append_nil _).symm
  | reportAll =>
      have kept : b.errors.filter (fun e => fate e.location [.reportAll] = .pending) = [] :=
        List.filter_eq_nil_iff.mpr fun _ _ => by simp [fate]
      have dropped : (r.answer b .reportAll).2 = ∅ := r.reportEach_perm_snd b (.refl _)
      rw [kept, dropped]
      exact .nil

theorem answer_fst {b : ErrorBuffer} (apart : b.locations.Nodup) (c : BufferCall) :
    (r.answer b c).1 =
      (b.errors.filter fun e => fate e.location [c] = .told).flatMap r.diagnose := by
  cases c with
  | record e =>
      have reached : b.errors.filter (fun e' => fate e'.location [.record e] = .told) = [] := by
        rw [List.filter_eq_nil_iff]
        intro e' _
        by_cases here : e.location = e'.location <;> simp [fate, here]
      rw [reached]
      rfl
  | report l =>
      have reached : b.errors.filter (fun e => fate e.location [.report l] = .told) =
          b.errors.filter (fun e => e.location = l) := by
        refine List.filter_congr fun e _ => ?_
        by_cases here : l = e.location <;> simp [fate, here, Ne.symm]
      rw [reached, ← ErrorBuffer.toList_pending? apart]
      exact r.report_fst b l
  | reportAll =>
      have reached : b.errors.filter (fun e => fate e.location [.reportAll] = .told) = b.errors :=
        List.filter_eq_self.mpr fun _ _ => by simp [fate]
      rw [reached]
      exact r.reportAll_fst apart

/-- After any calls the buffer holds the findings whose fate is open, and those that were told are
the ones that a report reached first. -/
theorem answerAll_perm (calls : List BufferCall) :
    (r.answerAll calls).2.errors.Perm (recorded .pending calls) ∧
      (r.answerAll calls).1.Perm ((recorded .told calls).flatMap r.diagnose) := by
  induction calls using List.reverseRecOn with
  | nil => exact ⟨.nil, .nil⟩
  | append_singleton calls c ih =>
      obtain ⟨hpending, htold⟩ := ih
      have apart := r.nodup_locations_answerAll calls
      rw [answerAll_concat, recorded_pending_concat]
      constructor
      · refine (r.answer_snd_perm apart c).trans ?_
        exact (hpending.filter _).append_right _
      · have hnew : (r.answer (r.answerAll calls).2 c).1.Perm
            (((recorded .pending calls).filter fun e => fate e.location [c] = .told).flatMap
              r.diagnose) := by
          rw [r.answer_fst apart c]
          exact (hpending.filter _).flatMap_right _
        have settled : Fate.told ≠ .pending := by decide
        have hsplit := (recorded_concat_perm settled calls c).flatMap_right r.diagnose
        rw [List.flatMap_append] at hsplit
        exact (htold.append hnew).trans hsplit.symm

theorem report_answerAll_fst (calls : List BufferCall) (l : Location) :
    (r.report (r.answerAll calls).2 l).1 =
      ((recorded .pending calls).filter (·.location = l)).flatMap r.diagnose := by
  have here : ((r.answerAll calls).2.pending? l).toList.Perm
      ((recorded .pending calls).filter (·.location = l)) := by
    rw [ErrorBuffer.toList_pending? (r.nodup_locations_answerAll calls)]
    exact (r.answerAll_perm calls).1.filter _
  rw [report_fst]
  cases found : (r.answerAll calls).2.pending? l with
  | none =>
      rw [found, Option.toList_none] at here
      rw [← here.nil_eq, Option.toList_none]
  | some e =>
      rw [found, Option.toList_some] at here
      rw [← List.singleton_perm.mp here, Option.toList_some]

/-- Whatever is recorded and reported, in any order: each finding is pending, replaced or told, by
the first later call at its place. The buffer holds the pending ones, in the order in which their
places were first recorded since the last report there, and what was told in all is what there is to
tell of the told ones, each once. The next report at a place tells of the finding there and leaves
the others in their order; a report of all tells of each place in turn and leaves nothing; and to
report the places one by one in another order tells the same in another order. -/
theorem findings_neither_lost_nor_told_twice (calls : List BufferCall) :
    let told := (r.answerAll calls).1
    let b := (r.answerAll calls).2
    (calls.filterMap finding?).Perm
        (recorded .pending calls ++ (recorded .replaced calls ++ recorded .told calls)) ∧
      (b.errors.Perm (recorded .pending calls) ∧ b.locations = (unreported calls).eraseDups) ∧
      told.Perm ((recorded .told calls).flatMap r.diagnose) ∧
      (∀ l, (r.report b l).1 =
          ((recorded .pending calls).filter (·.location = l)).flatMap r.diagnose ∧
        (r.report b l).2.errors = b.errors.filter (·.location ≠ l)) ∧
      ((r.reportAll b).1 = b.locations.flatMap (fun l => (r.report b l).1) ∧
        (r.reportAll b).2 = ∅) ∧
      ∀ ls, ls.Perm b.locations →
        (r.reportEach b ls).1.Perm (r.reportAll b).1 ∧ (r.reportEach b ls).2 = ∅ := by
  intro told b
  have apart : b.locations.Nodup := r.nodup_locations_answerAll calls
  obtain ⟨hpending, htold⟩ := r.answerAll_perm calls
  refine ⟨findings_perm calls, ⟨hpending, r.locations_answerAll calls⟩, htold, fun l => ⟨?_, ?_⟩,
    ⟨r.reportEach_fst b apart, r.reportEach_perm_snd b (.refl _)⟩, fun ls all => ?_⟩
  · exact r.report_answerAll_fst calls l
  · rw [report_snd]
    rfl
  · exact ⟨r.reportEach_perm_fst b apart all, r.reportEach_perm_snd b all⟩

/-- Something is told of each finding that a report reaches, unless all of its fields are suppressed
or exempt, and what is told has the key of such a finding. -/
theorem answerAll_tells_of_reached (calls : List BufferCall) :
    ((r.answerAll calls).1 = [] ↔ ∀ e ∈ recorded .told calls, ∀ f ∈ e.fields,
        r.suppression f e.key = true ∨ r.isExempt f = true) ∧
      ∀ d ∈ (r.answerAll calls).1, ∃ e ∈ recorded .told calls,
        d ∈ r.diagnose e ∧ d.key = e.key := by
  have htold := (r.answerAll_perm calls).2
  constructor
  · have hnil : (r.answerAll calls).1 = [] ↔ (recorded .told calls).flatMap r.diagnose = [] :=
      ⟨fun h => List.perm_nil.mp (h ▸ htold.symm), fun h => List.perm_nil.mp (h ▸ htold)⟩
    rw [hnil, List.flatMap_eq_nil_iff]
    exact forall_congr' fun e => imp_congr_right fun _ => r.diagnose_eq_nil_iff
  · intro d hd
    obtain ⟨e, he, told⟩ := List.mem_flatMap.mp (htold.mem_iff.mp hd)
    exact ⟨e, he, told, PendingError.key_of_mem_diagnostics told⟩

end Reporter

end ObjectInit
