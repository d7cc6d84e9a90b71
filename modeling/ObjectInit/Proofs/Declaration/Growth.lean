import ObjectInit.Declaration.Table

/-! # How declaration tables grow

There are five kinds of accepted declarations, and what they preserve holds of every table. In
particular a class lists exactly the declared fields that it owns.
-/

namespace ObjectInit.DeclarationTable

/-- The tables that any declarations lead to, the refused ones included. -/
inductive Reachable : DeclarationTable → Prop
  | empty : Reachable ∅
  | declareClass {t : DeclarationTable} (frame : Frame) (name : Name) (location : Location)
      (isFinal : Bool) : Reachable t → Reachable (t.declareClass frame name location isFinal).2
  | setEnclosingSite {t : DeclarationTable} (inner : Frame) (site : EnclosingSite) :
      Reachable t → Reachable (t.setEnclosingSite inner site).2
  | declareField {t : DeclarationTable} (field : FieldDecl) :
      Reachable t → Reachable (t.declareField field).2
  | declareMember {t : DeclarationTable} (owner : Frame) (kind : MemberKind) (location : Location)
      (receiver : Option Qualifier) :
      Reachable t → Reachable (t.declareMember owner kind location receiver).2
  | registerLocation {t : DeclarationTable} (location : Location) (id : MemberId) :
      Reachable t → Reachable (t.registerLocation location id).2

inductive Request
  | declareClass (frame : Frame) (name : Name) (location : Location) (isFinal : Bool)
  | setEnclosingSite (inner : Frame) (site : EnclosingSite)
  | declareField (field : FieldDecl)
  | declareMember (owner : Frame) (kind : MemberKind) (location : Location)
      (receiver : Option Qualifier)
  | registerLocation (location : Location) (id : MemberId)
deriving DecidableEq

def respond (t : DeclarationTable) : Request → Except DeclarationError Unit × DeclarationTable
  | .declareClass frame name location isFinal => t.declareClass frame name location isFinal
  | .setEnclosingSite inner site => t.setEnclosingSite inner site
  | .declareField field => (t.declareField field).map (·.map fun _ => ()) id
  | .declareMember owner kind location receiver =>
    (t.declareMember owner kind location receiver).map (·.map fun _ => ()) id
  | .registerLocation location id => t.registerLocation location id

inductive Accepts (t : DeclarationTable) : DeclarationTable → Prop
  | newClass {frame : Frame} (name : Name) (location : Location) (isFinal : Bool)
      (fresh : t.classes.get? frame = none) :
      Accepts t { t with
        classes := t.classes.insert frame ⟨frame, name, location, isFinal, none, [], []⟩ }
  | newSite {inner : Frame} {site : EnclosingSite} {m : MemberId} {c : ClassDecl}
      (inside : t.memberAt.get? site.location = some m)
      (declared : t.classes.get? inner = some c) :
      Accepts t { t with classes := t.classes.insert inner { c with enclosing := some site } }
  | newField {field : FieldDecl} {c : ClassDecl} (fresh : t.fields.get? field.id = none)
      (declared : t.classes.get? field.id.owner = some c) :
      Accepts t { t with
        classes := t.classes.insert field.id.owner { c with fields := c.fields ++ [field.id] }
        fields := t.fields.insert field.id field }
  | newMember {owner : Frame} {c : ClassDecl} {location : Location} (kind : MemberKind)
      (receiver : Option Qualifier) (free : t.memberAt.get? location = none)
      (declared : t.classes.get? owner = some c) :
      Accepts t { t with
        classes := t.classes.insert owner { c with members := c.members ++ [⟨t.members.size⟩] }
        members := t.members.push ⟨⟨t.members.size⟩, owner, kind, location, receiver⟩
        memberAt := t.memberAt.insert location ⟨t.members.size⟩ }
  | newLocation {location : Location} {id : MemberId} {d : MemberDecl}
      (declared : t.member? id = some d) (free : t.memberAt.get? location = none) :
      Accepts t { t with memberAt := t.memberAt.insert location id }

/-! ## Declarations -/

theorem declareClass_cases (t : DeclarationTable) (frame : Frame) (name : Name)
    (location : Location) (isFinal : Bool) :
    (∃ e, t.declareClass frame name location isFinal = (.error e, t)) ∨
      t.classes.get? frame = none ∧ t.declareClass frame name location isFinal = (.ok (), { t with
        classes := t.classes.insert frame ⟨frame, name, location, isFinal, none, [], []⟩ }) := by
  cases fresh : t.classes.get? frame with
  | some c => exact .inl ⟨.duplicateClass frame, by simp only [declareClass, fresh]⟩
  | none => exact .inr ⟨rfl, by simp only [declareClass, fresh]⟩

theorem setEnclosingSite_cases (t : DeclarationTable) (inner : Frame) (site : EnclosingSite) :
    (∃ e, t.setEnclosingSite inner site = (.error e, t)) ∨
      ∃ m c, t.memberAt.get? site.location = some m ∧ t.classes.get? inner = some c ∧
        t.setEnclosingSite inner site = (.ok (), { t with
          classes := t.classes.insert inner { c with enclosing := some site } }) := by
  cases inside : t.memberAt.get? site.location with
  | none =>
      exact .inl ⟨.enclosingSiteOutsideMember site.location inner,
        by simp only [setEnclosingSite, inside]⟩
  | some m =>
      cases declared : t.classes.get? inner with
      | none =>
          exact .inl ⟨.unknownClass inner, by simp only [setEnclosingSite, inside, declared]⟩
      | some c => exact .inr ⟨m, c, rfl, rfl, by simp only [setEnclosingSite, inside, declared]⟩

theorem declareField_cases (t : DeclarationTable) (field : FieldDecl) :
    (∃ e, t.declareField field = (.error e, t)) ∨
      ∃ c, t.fields.get? field.id = none ∧ t.classes.get? field.id.owner = some c ∧
        t.declareField field = (.ok field.id, { t with
          classes := t.classes.insert field.id.owner { c with fields := c.fields ++ [field.id] }
          fields := t.fields.insert field.id field }) := by
  cases fresh : t.fields.get? field.id with
  | some f => exact .inl ⟨.duplicateField field.id, by simp only [declareField, fresh]⟩
  | none =>
      cases declared : t.classes.get? field.id.owner with
      | none =>
          exact .inl ⟨.unknownClass field.id.owner,
            by simp only [declareField, fresh, declared]⟩
      | some c => exact .inr ⟨c, rfl, rfl, by simp only [declareField, fresh, declared]⟩

theorem declareMember_cases (t : DeclarationTable) (owner : Frame) (kind : MemberKind)
    (location : Location) (receiver : Option Qualifier) :
    (∃ e, t.declareMember owner kind location receiver = (.error e, t)) ∨
      ∃ c, t.memberAt.get? location = none ∧ t.classes.get? owner = some c ∧
        t.declareMember owner kind location receiver = (.ok ⟨t.members.size⟩, { t with
          classes := t.classes.insert owner { c with members := c.members ++ [⟨t.members.size⟩] }
          members := t.members.push ⟨⟨t.members.size⟩, owner, kind, location, receiver⟩
          memberAt := t.memberAt.insert location ⟨t.members.size⟩ }) := by
  cases free : t.memberAt.get? location with
  | some m =>
      exact .inl ⟨.locationAlreadyRegistered location m, by simp only [declareMember, free]⟩
  | none =>
      cases declared : t.classes.get? owner with
      | none =>
          exact .inl ⟨.unknownClass owner, by simp only [declareMember, free, declared]⟩
      | some c => exact .inr ⟨c, rfl, rfl, by simp only [declareMember, free, declared]⟩

theorem registerLocation_cases (t : DeclarationTable) (location : Location) (id : MemberId) :
    (∃ e, t.registerLocation location id = (.error e, t)) ∨
      (t.memberAt.get? location = some id ∧ t.registerLocation location id = (.ok (), t)) ∨
      ∃ d, t.member? id = some d ∧ t.memberAt.get? location = none ∧
        t.registerLocation location id =
          (.ok (), { t with memberAt := t.memberAt.insert location id }) := by
  cases declared : t.member? id with
  | none => exact .inl ⟨.unknownMember id, by simp only [registerLocation, declared]⟩
  | some d =>
      cases free : t.memberAt.get? location with
      | none => exact .inr (.inr ⟨d, rfl, rfl, by simp only [registerLocation, declared, free]⟩)
      | some existing =>
          by_cases same : existing = id
          · exact .inr (.inl ⟨by rw [same], by
              simp only [registerLocation, declared, free, if_pos same]⟩)
          · exact .inl ⟨.locationAlreadyRegistered location existing,
              by simp only [registerLocation, declared, free, if_neg same]⟩

theorem respond_cases (t : DeclarationTable) (r : Request) :
    (∃ e, t.respond r = (.error e, t)) ∨
      ∃ t', t.respond r = (.ok (), t') ∧ (t' = t ∨ t.Accepts t') := by
  cases r with
  | declareClass frame name location isFinal =>
      rcases t.declareClass_cases frame name location isFinal with refused | ⟨fresh, accepted⟩
      · exact .inl refused
      · exact .inr ⟨_, accepted, .inr (.newClass name location isFinal fresh)⟩
  | setEnclosingSite inner site =>
      rcases t.setEnclosingSite_cases inner site with refused | ⟨m, c, inside, declared, accepted⟩
      · exact .inl refused
      · exact .inr ⟨_, accepted, .inr (.newSite inside declared)⟩
  | declareField field =>
      rcases t.declareField_cases field with ⟨e, refused⟩ | ⟨c, fresh, declared, accepted⟩
      · exact .inl ⟨e, by rw [respond, refused]; rfl⟩
      · exact .inr ⟨_, by rw [respond, accepted]; rfl, .inr (.newField fresh declared)⟩
  | declareMember owner kind location receiver =>
      rcases t.declareMember_cases owner kind location receiver with
        ⟨e, refused⟩ | ⟨c, free, declared, accepted⟩
      · exact .inl ⟨e, by rw [respond, refused]; rfl⟩
      · exact .inr ⟨_, by rw [respond, accepted]; rfl,
          .inr (.newMember kind receiver free declared)⟩
  | registerLocation location id =>
      rcases t.registerLocation_cases location id with
        refused | ⟨-, known⟩ | ⟨d, declared, free, accepted⟩
      · exact .inl refused
      · exact .inr ⟨t, known, .inl rfl⟩
      · exact .inr ⟨_, accepted, .inr (.newLocation declared free)⟩

/-! ## Every table -/

theorem Reachable.of_respond {P : DeclarationTable → Prop} (start : P ∅)
    (next : ∀ t r, P t → P (t.respond r).2) {t : DeclarationTable} (hr : t.Reachable) : P t := by
  induction hr with
  | empty => exact start
  | declareClass frame name location isFinal _ ih =>
      exact next _ (.declareClass frame name location isFinal) ih
  | setEnclosingSite inner site _ ih => exact next _ (.setEnclosingSite inner site) ih
  | declareField field _ ih => exact next _ (.declareField field) ih
  | declareMember owner kind location receiver _ ih =>
      exact next _ (.declareMember owner kind location receiver) ih
  | registerLocation location id _ ih => exact next _ (.registerLocation location id) ih

/-- What the empty table satisfies and accepted declarations preserve holds of every table. -/
theorem Reachable.invariant {P : DeclarationTable → Prop} (start : P ∅)
    (step : ∀ t t', P t → t.Accepts t' → P t') {t : DeclarationTable} (hr : t.Reachable) : P t := by
  refine hr.of_respond start fun t r ht => ?_
  rcases t.respond_cases r with ⟨e, refused⟩ | ⟨t', answered, rfl | accepted⟩
  · rwa [refused]
  · rwa [answered]
  · rw [answered]
    exact step t t' ht accepted

/-! ## What a class lists -/

section Listed

universe u

variable {α : Type u} {t : DeclarationTable}

def listed (t : DeclarationTable) (part : ClassDecl → List α) (frame : Frame) : List α :=
  ((t.class? frame).map part).getD []

theorem listed_of_declared {frame : Frame} {c : ClassDecl}
    (declared : t.classes.get? frame = some c) (part : ClassDecl → List α) :
    t.listed part frame = part c := by
  simp [listed, class?, declared]

theorem listed_insert (t : DeclarationTable) (frame : Frame) (c : ClassDecl)
    (part : ClassDecl → List α) (other : Frame) :
    ({ t with classes := t.classes.insert frame c } : DeclarationTable).listed part other =
      if other = frame then part c else t.listed part other := by
  unfold listed class?
  by_cases h : other = frame
  · subst h
    simp
  · simp [h, FiniteMap.get?_insert_of_ne h]

theorem listed_insert_of_declared {frame : Frame} {c c' : ClassDecl}
    (declared : t.classes.get? frame = some c) {part : ClassDecl → List α}
    (same : part c' = part c) (other : Frame) :
    ({ t with classes := t.classes.insert frame c' } : DeclarationTable).listed part other =
      t.listed part other := by
  rw [listed_insert]
  split
  · rename_i here
    rw [here, listed_of_declared declared, same]
  · rfl

theorem listed_insert_of_fresh {frame : Frame} {c : ClassDecl}
    (fresh : t.classes.get? frame = none) {part : ClassDecl → List α} (nothing : part c = [])
    (other : Frame) :
    ({ t with classes := t.classes.insert frame c } : DeclarationTable).listed part other =
      t.listed part other := by
  rw [listed_insert]
  split
  · rename_i same
    simp [same, listed, class?, fresh, nothing]
  · rfl

theorem listed_insert_append {frame : Frame} {c c' : ClassDecl}
    (declared : t.classes.get? frame = some c) {part : ClassDecl → List α} {new : α}
    (appended : part c' = part c ++ [new]) (other : Frame) :
    ({ t with classes := t.classes.insert frame c' } : DeclarationTable).listed part other =
      if other = frame then t.listed part other ++ [new] else t.listed part other := by
  rw [listed_insert]
  split
  · rename_i same
    rw [appended, same, listed_of_declared declared]
  · rfl

end Listed

/-! ## Fields -/

def fieldIds (t : DeclarationTable) (frame : Frame) : List FieldId :=
  ((t.class? frame).map (·.fields)).getD []

theorem fieldsOf_eq (t : DeclarationTable) (frame : Frame) :
    t.fieldsOf frame = (t.fieldIds frame).filterMap t.field? := by
  unfold fieldsOf fieldIds
  cases t.class? frame <;> rfl

theorem Accepts.fields_cases {t t' : DeclarationTable} (h : t.Accepts t') :
    (t'.fields = t.fields ∧ ∀ frame, t'.fieldIds frame = t.fieldIds frame) ∨
      ∃ field : FieldDecl, t.fields.get? field.id = none ∧
        t'.fields = t.fields.insert field.id field ∧
        ∀ frame, t'.fieldIds frame = if frame = field.id.owner
          then t.fieldIds frame ++ [field.id] else t.fieldIds frame := by
  cases h with
  | newClass _ _ _ fresh => exact .inl ⟨rfl, listed_insert_of_fresh fresh rfl⟩
  | newSite _ declared => exact .inl ⟨rfl, listed_insert_of_declared declared rfl⟩
  | @newField field c fresh declared =>
      exact .inr ⟨field, fresh, rfl, listed_insert_append declared rfl⟩
  | newMember _ _ _ declared => exact .inl ⟨rfl, listed_insert_of_declared declared rfl⟩
  | newLocation _ _ => exact .inl ⟨rfl, fun _ => rfl⟩

theorem field?_congr {t t' : DeclarationTable} (same : t'.fields = t.fields) :
    t'.field? = t.field? := by
  unfold field?
  rw [same]

theorem field?_of_insert {t t' : DeclarationTable} {field : FieldDecl}
    (inserted : t'.fields = t.fields.insert field.id field) (id : FieldId) :
    t'.field? id = if id = field.id then some field else t.field? id := by
  unfold field?
  rw [inserted]
  by_cases same : id = field.id
  · rw [if_pos same, same, FiniteMap.get?_insert_self]
  · rw [if_neg same, FiniteMap.get?_insert_of_ne same]

/-- Fields are kept under their own identity, and a class lists exactly those that it owns. -/
structure FieldsListed (t : DeclarationTable) : Prop where
  key {id : FieldId} {f : FieldDecl} : t.field? id = some f → f.id = id
  mem_fieldIds_iff {frame : Frame} {id : FieldId} :
    id ∈ t.fieldIds frame ↔ id.owner = frame ∧ ∃ f, t.field? id = some f

theorem FieldsListed.step {t t' : DeclarationTable} (ht : t.FieldsListed) (h : t.Accepts t') :
    t'.FieldsListed := by
  obtain ⟨hfields, hids⟩ | ⟨field, -, hfields, hids⟩ := h.fields_cases
  · have hfield : t'.field? = t.field? := field?_congr hfields
    refine ⟨?_, ?_⟩
    · rw [hfield]
      exact ht.key
    · intro frame id
      rw [hfield, hids]
      exact ht.mem_fieldIds_iff
  · have hfield := field?_of_insert hfields
    -- Only the new identity is looked up differently, and only its owner lists one more.
    refine ⟨?_, ?_⟩
    · intro id f hf
      rw [hfield] at hf
      split at hf
      · rename_i same
        cases hf
        exact same.symm
      · exact ht.key hf
    · intro frame id
      have hmem : id ∈ t'.fieldIds frame ↔
          id ∈ t.fieldIds frame ∨ id = field.id ∧ frame = field.id.owner := by
        rw [hids]
        split
        · rename_i same
          simp [same]
        · rename_i other
          simp [other]
      rw [hmem, hfield, ht.mem_fieldIds_iff]
      by_cases same : id = field.id
      · subst same
        rw [if_pos rfl]
        constructor
        · intro h
          cases h with
          | inl old => exact ⟨old.1, field, rfl⟩
          | inr new => exact ⟨new.2.symm, field, rfl⟩
        · intro h
          exact .inr ⟨rfl, h.1.symm⟩
      · simp [same]

theorem FieldsListed.empty : FieldsListed ∅ where
  key h := by cases h
  mem_fieldIds_iff {frame id} := by
    constructor
    · intro h
      cases h
    · intro ⟨_, f, h⟩
      cases h

theorem Reachable.fieldsListed {t : DeclarationTable} (hr : t.Reachable) : t.FieldsListed :=
  hr.invariant .empty fun _ _ => FieldsListed.step

theorem Reachable.mem_fieldsOf_iff {t : DeclarationTable} (hr : t.Reachable) {frame : Frame}
    {f : FieldDecl} : f ∈ t.fieldsOf frame ↔ t.field? f.id = some f ∧ f.id.owner = frame := by
  rw [fieldsOf_eq, List.mem_filterMap]
  constructor
  · intro ⟨id, hid, hf⟩
    obtain rfl := hr.fieldsListed.key hf
    exact ⟨hf, (hr.fieldsListed.mem_fieldIds_iff.mp hid).1⟩
  · intro ⟨hf, howner⟩
    exact ⟨f.id, hr.fieldsListed.mem_fieldIds_iff.mpr ⟨howner, f, hf⟩, hf⟩

/-- A class has at most one field of a name, so to look one up is to search its list. -/
theorem Reachable.fieldByName?_eq_find? {t : DeclarationTable} (hr : t.Reachable) (owner : Frame)
    (name : Name) :
    t.fieldByName? owner name = (t.fieldsOf owner).find? (·.id.name = name) := by
  have known : ∀ f ∈ t.fieldsOf owner, f.id.name = name →
      t.fieldByName? owner name = some f := by
    intro f listed named
    obtain ⟨declared, own⟩ := hr.mem_fieldsOf_iff.mp listed
    rw [← own, ← named]
    exact declared
  cases found : (t.fieldsOf owner).find? (·.id.name = name) with
  | some f =>
      have named : f.id.name = name := by simpa using List.find?_some found
      exact known f (List.mem_of_find?_eq_some found) named
  | none =>
      cases declared : t.fieldByName? owner name with
      | none => rfl
      | some f =>
          have key : f.id = ⟨owner, name⟩ := hr.fieldsListed.key declared
          have listed : f ∈ t.fieldsOf owner := by
            rw [hr.mem_fieldsOf_iff, key]
            exact ⟨declared, rfl⟩
          have other : f.id.name ≠ name := by simpa using List.find?_eq_none.mp found f listed
          exact absurd (congrArg FieldId.name key) other

/-! ## Members -/

theorem Accepts.memberAt_mono {t t' : DeclarationTable} (h : t.Accepts t') {l : Location}
    {m : MemberId} (hl : t.memberAt.get? l = some m) : t'.memberAt.get? l = some m := by
  have other : ∀ {location : Location}, t.memberAt.get? location = none → l ≠ location := by
    intro location free same
    rw [same, free] at hl
    cases hl
  cases h with
  | newClass | newSite | newField => exact hl
  | newMember _ _ free _ => exact (FiniteMap.get?_insert_of_ne (other free)).trans hl
  | newLocation _ free => exact (FiniteMap.get?_insert_of_ne (other free)).trans hl

theorem Accepts.member?_cases {t t' : DeclarationTable} (h : t.Accepts t') {m : MemberId}
    {d : MemberDecl} (hd : t'.member? m = some d) :
    t.member? m = some d ∨ d.id = m ∧ t'.memberAt.get? d.location = some m := by
  cases h with
  | newClass | newSite | newField | newLocation => exact .inl hd
  | @newMember owner c location kind receiver free declared =>
      have hpush : some d = if m.index = t.members.size
          then some ⟨⟨t.members.size⟩, owner, kind, location, receiver⟩ else t.member? m :=
        hd.symm.trans Array.getElem?_push
      split at hpush
      · rename_i last
        have hm : m = ⟨t.members.size⟩ := congrArg MemberId.mk last
        cases hpush
        exact .inr ⟨hm.symm, (FiniteMap.get?_insert_self _ _ _).trans (congrArg some hm.symm)⟩
      · exact .inl hpush.symm

def MembersPlaced (t : DeclarationTable) : Prop :=
  ∀ m d, t.member? m = some d → d.id = m ∧ t.memberAt.get? d.location = some m

theorem MembersPlaced.step {t t' : DeclarationTable} (ht : t.MembersPlaced) (h : t.Accepts t') :
    t'.MembersPlaced := by
  intro m d hd
  cases h.member?_cases hd with
  | inl old =>
      obtain ⟨hid, hplace⟩ := ht m d old
      exact ⟨hid, h.memberAt_mono hplace⟩
  | inr new => exact new

theorem Reachable.membersPlaced {t : DeclarationTable} (hr : t.Reachable) : t.MembersPlaced :=
  hr.invariant (fun _ _ h => by cases h) fun _ _ => MembersPlaced.step

end ObjectInit.DeclarationTable
