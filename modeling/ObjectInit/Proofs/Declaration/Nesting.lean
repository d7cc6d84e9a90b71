import ObjectInit.Data.Climb
import ObjectInit.Proofs.Declaration.Consistency

/-! # Classes inside classes

An enclosing site that captures links a class to the one around it. A site may lie in a member of
the class itself or of a class inside it, and exactly from the first such site on links lead back.
-/

namespace ObjectInit.DeclarationTable

variable {t t' : DeclarationTable}

def classAt? (t : DeclarationTable) (l : Location) : Option Frame :=
  (t.enclosingMember? l).map (·.owner)

/-- The class around a class, if its objects keep a reference to the object that creates them. -/
def outerClass? (t : DeclarationTable) (frame : Frame) : Option Frame :=
  (t.site? frame).bind fun site => if site.capturesOuter then t.classAt? site.location else none

def Nested (t : DeclarationTable) : Prop := Acyclic t.outerClass?

/-- The request is accepted and sets the enclosing site of a class in the class itself or in one
that is inside it. -/
def PutsInsideItself (t : DeclarationTable) (r : Request) : Prop :=
  ∃ inner site outer steps, r = .setEnclosingSite inner site ∧ (t.respond r).1 = .ok () ∧
    site.capturesOuter = true ∧ t.classAt? site.location = some outer ∧
    climb t.outerClass? steps outer = some inner

theorem nested_empty : Nested ∅ := by
  intro frame steps pos around
  obtain ⟨n, rfl⟩ := Nat.exists_eq_succ_of_ne_zero (Nat.ne_of_gt pos)
  cases around

theorem exists_place_of_outerClass? {inner outer : Frame}
    (linked : t.outerClass? inner = some outer) : ∃ l, t.classAt? l = some outer := by
  obtain ⟨site, -, inside⟩ := Option.bind_eq_some_iff.mp linked
  split at inside
  · exact ⟨site.location, inside⟩
  · cases inside

theorem exists_place_of_cycle {frame : Frame} {steps : Nat} (pos : 0 < steps)
    (cycle : climb t.outerClass? steps frame = some frame) : ∃ l, t.classAt? l = some frame := by
  rw [← Nat.sub_add_cancel pos, climb_add] at cycle
  obtain ⟨inner, -, last⟩ := Option.bind_eq_some_iff.mp cycle
  obtain ⟨outer, linked, here⟩ := Option.bind_eq_some_iff.mp last
  obtain rfl : outer = frame := Option.some.inj here
  exact exists_place_of_outerClass? linked

/-! ## One request -/

theorem PlacesInMembers.classAt?_eq_some (ht : t.PlacesInMembers) {l : Location} {m : MemberId}
    (registered : t.memberAt.get? l = some m) : ∃ frame, t.classAt? l = some frame := by
  obtain ⟨d, declared⟩ := ht l m registered
  exact ⟨d.owner, by rw [classAt?, enclosingMember?, registered, Option.bind_some, declared]; rfl⟩

theorem Extends.classAt? (extended : t.Extends t') {l : Location} {frame : Frame}
    (inside : t.classAt? l = some frame) : t'.classAt? l = some frame := by
  unfold DeclarationTable.classAt? enclosingMember? at *
  obtain ⟨d, found, owner⟩ := Option.map_eq_some_iff.mp inside
  obtain ⟨m, registered, declared⟩ := Option.bind_eq_some_iff.mp found
  rw [extended.memberAt registered, Option.bind_some, extended.member? declared, ← owner]
  rfl

theorem Reachable.outerClass?_of_extends (hr : t.Reachable) (extended : t.Extends t')
    {frame : Frame} (same : t'.site? frame = t.site? frame) :
    t'.outerClass? frame = t.outerClass? frame := by
  unfold outerClass?
  rw [same]
  refine Option.bind_congr fun site created => ?_
  obtain ⟨m, registered⟩ := hr.sitesRegistered frame site created
  obtain ⟨outer, inside⟩ := hr.placesInMembers.classAt?_eq_some registered
  rw [inside, extended.classAt? inside]

theorem Reachable.outerClass?_respond_of_unset (hr : t.Reachable) {r : Request} {frame : Frame}
    (unset : ∀ site, r = .setEnclosingSite frame site → (t.respond r).1 ≠ .ok ()) :
    (t.respond r).2.outerClass? frame = t.outerClass? frame := by
  rcases t.site?_respond r frame with same | ⟨site, m, rfl, -, -⟩
  · exact hr.outerClass?_of_extends (t.extends_respond r) same
  · rcases t.setEnclosingSite_cases frame site with ⟨e, refused⟩ | ⟨m, c, -, -, accepted⟩
    · rw [DeclarationTable.respond, refused]
    · exact absurd (by rw [DeclarationTable.respond, accepted]) (unset site rfl)

theorem Reachable.outerClass?_setEnclosingSite (hr : t.Reachable) {inner : Frame}
    {site : EnclosingSite} (accepted : (t.respond (.setEnclosingSite inner site)).1 = .ok ()) :
    (t.respond (.setEnclosingSite inner site)).2.outerClass? inner =
      if site.capturesOuter then t.classAt? site.location else none := by
  have extended := t.extends_respond (.setEnclosingSite inner site)
  rcases t.setEnclosingSite_cases inner site with ⟨e, refused⟩ | ⟨m, c, registered, -, set⟩
  · rw [DeclarationTable.respond, refused] at accepted
    cases accepted
  · obtain ⟨outer, inside⟩ := hr.placesInMembers.classAt?_eq_some registered
    have created : (t.respond (.setEnclosingSite inner site)).2.site? inner = some site := by
      rw [DeclarationTable.respond, set, site?_of_insert rfl, if_pos rfl]
    rw [outerClass?, created, Option.bind_some, inside, extended.classAt? inside]

/-- Of all requests, only one that puts a class inside itself ends the nesting. -/
theorem Reachable.nested_respond_iff (hr : t.Reachable) (nested : t.Nested) (r : Request) :
    (t.respond r).2.Nested ↔ ¬ t.PutsInsideItself r := by
  by_cases sets : ∃ inner site, r = .setEnclosingSite inner site ∧ (t.respond r).1 = .ok ()
  · obtain ⟨inner, site, rfl, accepted⟩ := sets
    have elsewhere : ∀ frame, frame ≠ inner →
        (t.respond (.setEnclosingSite inner site)).2.outerClass? frame = t.outerClass? frame := by
      intro frame other
      refine hr.outerClass?_respond_of_unset fun site' named => ?_
      cases named
      exact absurd rfl other
    unfold Nested
    rw [acyclic_relink_iff elsewhere nested, hr.outerClass?_setEnclosingSite accepted]
    constructor
    · rintro apart ⟨inner', site', outer, steps, same, -, captures, inside, met⟩
      cases same
      rw [if_pos captures] at apart
      exact apart outer inside steps met
    · intro apart outer linked steps met
      split at linked
      · rename_i captures
        exact apart ⟨inner, site, outer, steps, rfl, accepted, captures, linked, met⟩
      · cases linked
  · have same : (t.respond r).2.outerClass? = t.outerClass? := by
      funext frame
      exact hr.outerClass?_respond_of_unset fun site named accepted =>
        sets ⟨frame, site, named, accepted⟩
    have harmless : ¬ t.PutsInsideItself r := by
      rintro ⟨inner, site, outer, steps, rfl, accepted, -⟩
      exact sets ⟨inner, site, rfl, accepted⟩
    unfold Nested
    rw [same]
    exact iff_of_true nested harmless

/-! ## A run -/

theorem nested_collect (requests : List Request)
    (apart : ∀ before r after, requests = before ++ r :: after →
      ¬ (collect before).PutsInsideItself r) : (collect requests).Nested := by
  induction requests using List.reverseRecOn with
  | nil => exact nested_empty
  | append_singleton requests r ih =>
      have hr : (collect requests).Reachable := reachable_iff.mpr ⟨requests, rfl⟩
      have nested : (collect requests).Nested := by
        refine ih fun before r' after split => apart before r' (after ++ [r]) ?_
        rw [split, List.append_assoc, List.cons_append]
      rw [collect_concat, hr.nested_respond_iff nested]
      exact apart requests r [] rfl

end ObjectInit.DeclarationTable
