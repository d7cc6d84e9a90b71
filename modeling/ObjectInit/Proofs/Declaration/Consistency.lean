import ObjectInit.Proofs.Declaration.Requests

/-! # What a table says of its declarations

A table keeps classes, fields, members and places apart and refers from each to the others by
number. These references agree, and none leads nowhere.
-/

namespace ObjectInit.DeclarationTable

variable {t t' : DeclarationTable}

/-! ## The history of fields -/

/-- The field that a request adds, if it is accepted. -/
def newFields (t : DeclarationTable) : Request → List FieldDecl
  | .declareField field =>
    match (t.declareField field).1 with
    | .ok _ => [field]
    | .error _ => []
  | _ => []

def fieldsDeclared (t : DeclarationTable) : List Request → List FieldDecl
  | [] => []
  | r :: requests => t.newFields r ++ (t.respond r).2.fieldsDeclared requests

theorem fields_respond (t : DeclarationTable) (r : Request) :
    (t.newFields r = [] ∧ (t.respond r).2.fields = t.fields ∧
        ∀ frame, (t.respond r).2.fieldIds frame = t.fieldIds frame) ∨
      ∃ field : FieldDecl, t.newFields r = [field] ∧ t.fields.get? field.id = none ∧
        (t.respond r).2.fields = t.fields.insert field.id field ∧
        ∀ frame, (t.respond r).2.fieldIds frame = if frame = field.id.owner
          then t.fieldIds frame ++ [field.id] else t.fieldIds frame := by
  cases r with
  | declareClass frame name location isFinal =>
      refine .inl ⟨rfl, ?_⟩
      rcases t.declareClass_cases frame name location isFinal with
        ⟨e, refused⟩ | ⟨fresh, accepted⟩
      · rw [respond, refused]
        exact ⟨rfl, fun _ => rfl⟩
      · rw [respond, accepted]
        exact ⟨rfl, listed_insert_of_fresh fresh rfl⟩
  | setEnclosingSite inner site =>
      refine .inl ⟨rfl, ?_⟩
      rcases t.setEnclosingSite_cases inner site with
        ⟨e, refused⟩ | ⟨m, c, -, declared, accepted⟩
      · rw [respond, refused]
        exact ⟨rfl, fun _ => rfl⟩
      · rw [respond, accepted]
        exact ⟨rfl, listed_insert_of_declared declared rfl⟩
  | declareField field =>
      rcases t.declareField_cases field with ⟨e, refused⟩ | ⟨c, fresh, declared, accepted⟩
      · rw [newFields, respond, refused]
        exact .inl ⟨rfl, rfl, fun _ => rfl⟩
      · rw [newFields, respond, accepted]
        exact .inr ⟨field, rfl, fresh, rfl, listed_insert_append declared rfl⟩
  | declareMember owner kind location receiver =>
      refine .inl ⟨rfl, ?_⟩
      rcases t.declareMember_cases owner kind location receiver with
        ⟨e, refused⟩ | ⟨c, -, declared, accepted⟩
      · rw [respond, refused]
        exact ⟨rfl, fun _ => rfl⟩
      · rw [respond, accepted]
        exact ⟨rfl, listed_insert_of_declared declared rfl⟩
  | registerLocation location id =>
      refine .inl ⟨rfl, ?_⟩
      rcases t.registerLocation_cases location id with
        ⟨e, refused⟩ | ⟨-, known⟩ | ⟨d, -, -, accepted⟩
      · rw [respond, refused]
        exact ⟨rfl, fun _ => rfl⟩
      · rw [respond, known]
        exact ⟨rfl, fun _ => rfl⟩
      · rw [respond, accepted]
        exact ⟨rfl, fun _ => rfl⟩

/-- The fields of the table are those of the history, which a class lists in the same order. -/
structure Records (t : DeclarationTable) (history : List FieldDecl) : Prop where
  field?_iff {id : FieldId} {f : FieldDecl} : t.field? id = some f ↔ f ∈ history ∧ f.id = id
  distinct : (history.map (·.id)).Nodup
  fieldIds_eq (frame : Frame) :
    t.fieldIds frame = (history.filter fun f => f.id.owner = frame).map (·.id)

theorem Records.empty : Records ∅ [] where
  field?_iff {id f} := by
    constructor
    · intro h
      cases h
    · intro h
      cases h.1
  distinct := .nil
  fieldIds_eq _ := rfl

theorem Records.respond {history : List FieldDecl} (records : t.Records history) (r : Request) :
    (t.respond r).2.Records (history ++ t.newFields r) := by
  rcases t.fields_respond r with ⟨nothing, same, hids⟩ | ⟨field, new, fresh, inserted, hids⟩
  · rw [nothing, List.append_nil]
    refine ⟨?_, records.distinct, fun frame => ?_⟩
    · intro id f
      rw [field?_congr same]
      exact records.field?_iff
    · rw [hids, records.fieldIds_eq]
  · have unused : ∀ f ∈ history, f.id ≠ field.id := by
      intro f hf same
      have declared : t.field? field.id = some f := records.field?_iff.mpr ⟨hf, same⟩
      exact Option.some_ne_none f (declared.symm.trans fresh)
    rw [new]
    refine ⟨?_, ?_, fun frame => ?_⟩
    · intro id f
      rw [field?_of_insert inserted, List.mem_append, List.mem_singleton]
      by_cases here : id = field.id
      · rw [if_pos here, here]
        constructor
        · intro h
          cases h
          exact ⟨.inr rfl, rfl⟩
        · rintro ⟨hf | rfl, hid⟩
          · exact absurd hid (unused f hf)
          · rfl
      · rw [if_neg here, records.field?_iff]
        constructor
        · exact fun ⟨hf, hid⟩ => ⟨.inl hf, hid⟩
        · rintro ⟨hf | rfl, hid⟩
          · exact ⟨hf, hid⟩
          · exact absurd hid.symm here
    · rw [List.map_append, List.nodup_append]
      refine ⟨records.distinct, List.nodup_singleton _, ?_⟩
      intro id hid id' hid'
      obtain ⟨f, hf, rfl⟩ := List.mem_map.mp hid
      rw [List.mem_singleton.mp hid']
      exact unused f hf
    · rw [hids, records.fieldIds_eq, List.filter_append, List.map_append]
      by_cases own : frame = field.id.owner
      · simp [own]
      · simp [own, Ne.symm own]

theorem Records.respondAll {history : List FieldDecl} (records : t.Records history)
    (requests : List Request) :
    (t.respondAll requests).Records (history ++ t.fieldsDeclared requests) := by
  induction requests generalizing t history with
  | nil =>
      rw [fieldsDeclared, List.append_nil]
      exact records
  | cons r requests ih =>
      rw [fieldsDeclared, ← List.append_assoc]
      exact ih (records.respond r)

theorem records_collect (requests : List Request) :
    (collect requests).Records (fieldsDeclared ∅ requests) := Records.empty.respondAll requests

example : (fieldsDeclared ∅ [.declareClass ⟨1⟩ ⟨1⟩ ⟨1⟩ false,
    .declareField { id := ⟨⟨1⟩, ⟨3⟩⟩, location := ⟨2⟩ },
    .declareField { id := ⟨⟨1⟩, ⟨2⟩⟩, location := ⟨3⟩ },
    .declareField { id := ⟨⟨1⟩, ⟨3⟩⟩, location := ⟨4⟩ }]).map (·.location) = [⟨2⟩, ⟨3⟩] := by
  decide +kernel

/-! ## References -/

theorem filterMap_map_key {α β : Type} {key : α → β} {look : β → Option α} {l : List α}
    (found : ∀ a ∈ l, look (key a) = some a) : (l.map key).filterMap look = l := by
  rw [List.filterMap_map]
  exact (List.filterMap_congr found).trans List.filterMap_some

theorem Records.fieldsOf_eq {history : List FieldDecl} (records : t.Records history)
    (frame : Frame) : t.fieldsOf frame = history.filter fun f => f.id.owner = frame := by
  rw [DeclarationTable.fieldsOf_eq, records.fieldIds_eq]
  refine filterMap_map_key fun f hf => ?_
  exact records.field?_iff.mpr ⟨(List.mem_filter.mp hf).1, rfl⟩

def MembersInOrder (t : DeclarationTable) : Prop := ∀ frame,
  t.memberIds frame = (t.members.toList.filter fun d => d.owner = frame).map (·.id)

theorem MembersInOrder.step (ht : t.MembersInOrder) (h : t.Accepts t') : t'.MembersInOrder := by
  intro frame
  rcases h.members_cases with ⟨hmembers, hids⟩ | ⟨d, -, pushed, hids⟩
  · rw [hmembers, hids, ht]
  · rw [hids, pushed, Array.toList_push, List.filter_append, List.map_append, ht]
    by_cases own : frame = d.owner
    · simp [own]
    · simp [own, Ne.symm own]

theorem Reachable.membersInOrder (hr : t.Reachable) : t.MembersInOrder :=
  hr.invariant (fun _ => rfl) fun _ _ => MembersInOrder.step

theorem Reachable.membersOf_eq_filter (hr : t.Reachable) (frame : Frame) :
    t.membersOf frame = t.members.toList.filter fun d => d.owner = frame := by
  rw [membersOf_eq, hr.membersInOrder]
  refine filterMap_map_key fun d hd => ?_
  obtain ⟨i, hi⟩ := List.mem_iff_getElem?.mp (List.mem_filter.mp hd).1
  have declared : t.member? ⟨i⟩ = some d := by
    rw [← hi]
    exact Array.getElem?_toList.symm
  rw [(hr.membersPlaced _ d declared).1, declared]

theorem Accepts.memberAt_cases (h : t.Accepts t') {l : Location} {m : MemberId}
    (hl : t'.memberAt.get? l = some m) :
    t.memberAt.get? l = some m ∨ ∃ d, t'.member? m = some d := by
  cases h with
  | newClass | newSite | newField => exact .inl hl
  | @newMember owner c location kind receiver _ _ =>
      by_cases new : l = location
      · rw [new, FiniteMap.get?_insert_self] at hl
        cases hl
        exact .inr ⟨_, (member?_of_push rfl _).trans (if_pos rfl)⟩
      · exact .inl ((FiniteMap.get?_insert_of_ne new).symm.trans hl)
  | @newLocation location id d declared _ =>
      by_cases new : l = location
      · rw [new, FiniteMap.get?_insert_self] at hl
        cases hl
        exact .inr ⟨d, declared⟩
      · exact .inl ((FiniteMap.get?_insert_of_ne new).symm.trans hl)

def PlacesInMembers (t : DeclarationTable) : Prop :=
  ∀ l m, t.memberAt.get? l = some m → ∃ d, t.member? m = some d

theorem PlacesInMembers.step (ht : t.PlacesInMembers) (h : t.Accepts t') : t'.PlacesInMembers := by
  intro l m hl
  rcases h.memberAt_cases hl with old | declared
  · obtain ⟨d, hd⟩ := ht l m old
    exact ⟨d, h.member?_mono hd⟩
  · exact declared

theorem Reachable.placesInMembers (hr : t.Reachable) : t.PlacesInMembers :=
  hr.invariant (fun _ _ h => by cases h) fun _ _ => PlacesInMembers.step

def SitesRegistered (t : DeclarationTable) : Prop :=
  ∀ frame site, t.site? frame = some site → ∃ m, t.memberAt.get? site.location = some m

theorem SitesRegistered.respond (ht : t.SitesRegistered) (r : Request) :
    (t.respond r).2.SitesRegistered := by
  intro frame site created
  have kept := t.extends_respond r
  rcases t.site?_respond r frame with same | ⟨site', m, -, inside, set⟩
  · obtain ⟨m, hm⟩ := ht frame site (same.symm.trans created)
    exact ⟨m, kept.memberAt hm⟩
  · obtain rfl : site' = site := Option.some.inj (set.symm.trans created)
    exact ⟨m, kept.memberAt inside⟩

theorem Reachable.sitesRegistered (hr : t.Reachable) : t.SitesRegistered :=
  hr.of_respond (fun _ _ h => by cases h) fun _ r ht => ht.respond r

/-! ## Consistency -/

/-- The parts of a table agree with each other, and with the fields declared so far. -/
structure Consistent (t : DeclarationTable) (history : List FieldDecl) : Prop where
  field?_iff {id : FieldId} {f : FieldDecl} : t.field? id = some f ↔ f ∈ history ∧ f.id = id
  fieldsOf_eq (frame : Frame) : t.fieldsOf frame = history.filter fun f => f.id.owner = frame
  /-- No reference to a field leads nowhere, and none is made twice. -/
  fieldIds_eq (frame : Frame) : t.fieldIds frame = (t.fieldsOf frame).map (·.id)
  nodup_fieldIds (frame : Frame) : (t.fieldIds frame).Nodup
  instanceFields (frame : Frame) : (t.instanceFieldsOf frame).Sublist (t.fieldsOf frame) ∧
    ∀ f ∈ t.instanceFieldsOf frame, f.isStatic = false
  staticFields (frame : Frame) : (t.staticFieldsOf frame).Sublist (t.fieldsOf frame) ∧
    ∀ f ∈ t.staticFieldsOf frame, f.isStatic = true
  partition (frame : Frame) :
    (t.instanceFieldsOf frame ++ t.staticFieldsOf frame).Perm (t.fieldsOf frame)
  /-- A member is found at the position that its number tells. -/
  number {m : MemberId} {d : MemberDecl} : t.member? m = some d → d.id = m
  membersOf_eq (frame : Frame) :
    t.membersOf frame = t.members.toList.filter fun d => d.owner = frame
  memberIds_eq (frame : Frame) : t.memberIds frame = (t.membersOf frame).map (·.id)
  increasing (frame : Frame) : (t.memberIds frame).Pairwise fun m m' => m.index < m'.index
  one_class {m : MemberId} {d : MemberDecl} : t.member? m = some d → ∃! frame, m ∈ t.memberIds frame
  places {l : Location} {m : MemberId} : t.memberAt.get? l = some m → ∃ d, t.member? m = some d
  own_place {m : MemberId} {d : MemberDecl} : t.member? m = some d →
    t.memberAt.get? d.location = some m
  sites {frame : Frame} {site : EnclosingSite} : t.site? frame = some site →
    ∃ m, t.memberAt.get? site.location = some m

/-- Whatever requests lead to it, a table is consistent, and its fields are those they declared. -/
theorem collect_consistent (requests : List Request) :
    (collect requests).Consistent (fieldsDeclared ∅ requests) := by
  have hr : (collect requests).Reachable := reachable_iff.mpr ⟨requests, rfl⟩
  have records := records_collect requests
  exact {
    field?_iff := records.field?_iff
    fieldsOf_eq := records.fieldsOf_eq
    fieldIds_eq frame := by rw [records.fieldIds_eq, records.fieldsOf_eq]
    nodup_fieldIds frame := by
      rw [records.fieldIds_eq]
      exact (List.filter_sublist.map _).nodup records.distinct
    instanceFields frame := ⟨List.filter_sublist, fun f hf => by
      simpa using (List.mem_filter.mp hf).2⟩
    staticFields frame := ⟨List.filter_sublist, fun f hf => (List.mem_filter.mp hf).2⟩
    partition frame := List.perm_append_comm.trans (List.filter_append_perm FieldDecl.isStatic _)
    number declared := (hr.membersPlaced _ _ declared).1
    membersOf_eq := hr.membersOf_eq_filter
    memberIds_eq frame := by rw [hr.membersInOrder, hr.membersOf_eq_filter]
    increasing := hr.membersListed.increasing
    one_class {m d} declared := by
      refine ⟨d.owner, hr.membersListed.mem_memberIds_iff.mpr ⟨d, declared, rfl⟩, ?_⟩
      intro frame listed
      obtain ⟨e, he, owner⟩ := hr.membersListed.mem_memberIds_iff.mp listed
      obtain rfl : e = d := Option.some.inj (he.symm.trans declared)
      exact owner.symm
    places := hr.placesInMembers _ _
    own_place declared := (hr.membersPlaced _ _ declared).2
    sites := hr.sitesRegistered _ _ }

end ObjectInit.DeclarationTable
