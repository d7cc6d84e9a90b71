import Mathlib.Data.List.Induction
import ObjectInit.Proofs.Declaration.Members

/-! # What declarations leave alone

Whatever is asked of a table, it is refused without effect or adds to the table: what was declared
or registered before is there afterwards, under the same number, and lists only grow at their ends.
-/

namespace ObjectInit

/-- A class that goes on as it was declared, with lists that may have grown at their ends. -/
structure ClassDecl.Continues (c c' : ClassDecl) : Prop where
  frame : c'.frame = c.frame
  name : c'.name = c.name
  location : c'.location = c.location
  isFinal : c'.isFinal = c.isFinal
  fields : c.fields <+: c'.fields
  members : c.members <+: c'.members

theorem ClassDecl.Continues.refl (c : ClassDecl) : c.Continues c :=
  ⟨rfl, rfl, rfl, rfl, List.prefix_refl _, List.prefix_refl _⟩

theorem ClassDecl.Continues.trans {c c' c'' : ClassDecl} (h : c.Continues c')
    (h' : c'.Continues c'') : c.Continues c'' where
  frame := h'.frame.trans h.frame
  name := h'.name.trans h.name
  location := h'.location.trans h.location
  isFinal := h'.isFinal.trans h.isFinal
  fields := h.fields.trans h'.fields
  members := h.members.trans h'.members

namespace DeclarationTable

variable {t t' : DeclarationTable}

/-! ## Requests -/

/-- The table that follows several requests, the refused ones included. -/
def respondAll (t : DeclarationTable) (requests : List Request) : DeclarationTable :=
  requests.foldl (fun t r => (t.respond r).2) t

def collect (requests : List Request) : DeclarationTable := respondAll ∅ requests

theorem Reachable.respond (hr : t.Reachable) (r : Request) : (t.respond r).2.Reachable := by
  cases r with
  | declareClass frame name location isFinal => exact hr.declareClass frame name location isFinal
  | setEnclosingSite inner site => exact hr.setEnclosingSite inner site
  | declareField field => exact hr.declareField field
  | declareMember owner kind location receiver =>
      exact hr.declareMember owner kind location receiver
  | registerLocation location id => exact hr.registerLocation location id

theorem collect_concat (requests : List Request) (r : Request) :
    collect (requests ++ [r]) = ((collect requests).respond r).2 := by
  unfold collect respondAll
  rw [List.foldl_append]
  rfl

theorem reachable_iff : t.Reachable ↔ ∃ requests, collect requests = t := by
  constructor
  · intro hr
    refine hr.of_respond (P := fun t => ∃ requests, collect requests = t) ⟨[], rfl⟩ ?_
    rintro _ r ⟨requests, rfl⟩
    exact ⟨requests ++ [r], collect_concat requests r⟩
  · rintro ⟨requests, rfl⟩
    induction requests using List.reverseRecOn with
    | nil => exact .empty
    | append_singleton requests r ih =>
        rw [collect_concat]
        exact ih.respond r

/-! ## Earlier and later tables -/

/-- Everything in the first table is in the second, where more may have been declared. -/
structure Extends (t t' : DeclarationTable) : Prop where
  class? {frame : Frame} {c : ClassDecl} : t.class? frame = some c →
    ∃ c', t'.class? frame = some c' ∧ c.Continues c'
  field? {id : FieldId} {f : FieldDecl} : t.field? id = some f → t'.field? id = some f
  member? {m : MemberId} {d : MemberDecl} : t.member? m = some d → t'.member? m = some d
  memberAt {l : Location} {m : MemberId} : t.memberAt.get? l = some m → t'.memberAt.get? l = some m

theorem Extends.refl (t : DeclarationTable) : t.Extends t :=
  ⟨fun {_ c} declared => ⟨c, declared, .refl c⟩, id, id, id⟩

theorem Extends.trans {t'' : DeclarationTable} (h : t.Extends t') (h' : t'.Extends t'') :
    t.Extends t'' where
  class? declared := by
    obtain ⟨c', declared', continues⟩ := h.class? declared
    obtain ⟨c'', declared'', continues'⟩ := h'.class? declared'
    exact ⟨c'', declared'', continues.trans continues'⟩
  field? declared := h'.field? (h.field? declared)
  member? declared := h'.member? (h.member? declared)
  memberAt registered := h'.memberAt (h.memberAt registered)

theorem Accepts.classes_cases (h : t.Accepts t') :
    t'.classes = t.classes ∨ ∃ frame c', t'.classes = t.classes.insert frame c' ∧
      (t.classes.get? frame = none ∨ ∃ c, t.classes.get? frame = some c ∧ c.Continues c') := by
  cases h with
  | newClass _ _ _ fresh => exact .inr ⟨_, _, rfl, .inl fresh⟩
  | @newSite _ _ _ c _ declared =>
      have continues := ClassDecl.Continues.refl c
      exact .inr ⟨_, _, rfl, .inr ⟨c, declared, { continues with }⟩⟩
  | @newField field c _ declared =>
      have continues := ClassDecl.Continues.refl c
      exact .inr ⟨_, _, rfl, .inr ⟨c, declared,
        { continues with fields := List.prefix_append c.fields [field.id] }⟩⟩
  | @newMember _ c _ _ _ _ declared =>
      have continues := ClassDecl.Continues.refl c
      exact .inr ⟨_, _, rfl, .inr ⟨c, declared,
        { continues with members := List.prefix_append c.members [⟨t.members.size⟩] }⟩⟩
  | newLocation _ _ => exact .inl rfl

theorem Accepts.class?_continues (h : t.Accepts t') {frame : Frame} {c : ClassDecl}
    (declared : t.class? frame = some c) : ∃ c', t'.class? frame = some c' ∧ c.Continues c' := by
  unfold class? at *
  rcases h.classes_cases with same | ⟨changed, c', hclasses, before⟩
  · exact ⟨c, by rw [same, declared], .refl c⟩
  · rw [hclasses]
    by_cases here : frame = changed
    · subst here
      rcases before with fresh | ⟨old, hold, continues⟩
      · exact absurd (declared.symm.trans fresh) (Option.some_ne_none c)
      · obtain rfl : old = c := Option.some.inj (hold.symm.trans declared)
        exact ⟨c', FiniteMap.get?_insert_self _ _ _, continues⟩
    · exact ⟨c, (FiniteMap.get?_insert_of_ne here).trans declared, .refl c⟩

theorem Accepts.field?_mono (h : t.Accepts t') {id : FieldId} {f : FieldDecl}
    (declared : t.field? id = some f) : t'.field? id = some f := by
  rcases h.fields_cases with ⟨same, -⟩ | ⟨field, fresh, inserted, -⟩
  · rw [field?_congr same, declared]
  · have other : id ≠ field.id := by
      rintro rfl
      exact Option.some_ne_none f (declared.symm.trans fresh)
    rw [field?_of_insert inserted, if_neg other, declared]

theorem Accepts.member?_mono (h : t.Accepts t') {m : MemberId} {d : MemberDecl}
    (declared : t.member? m = some d) : t'.member? m = some d := by
  rcases h.members_cases with ⟨same, -⟩ | ⟨new, -, pushed, -⟩
  · rw [member?_congr same, declared]
  · exact member?_of_push_of_declared pushed declared

theorem Accepts.extends (h : t.Accepts t') : t.Extends t' :=
  ⟨h.class?_continues, h.field?_mono, h.member?_mono, h.memberAt_mono⟩

theorem extends_respond (t : DeclarationTable) (r : Request) : t.Extends (t.respond r).2 := by
  rcases t.respond_cases r with ⟨e, refused⟩ | ⟨t', answered, rfl | accepted⟩
  · rw [refused]
    exact .refl t
  · rw [answered]
    exact .refl t'
  · rw [answered]
    exact accepted.extends

theorem extends_respondAll (t : DeclarationTable) (requests : List Request) :
    t.Extends (t.respondAll requests) := by
  induction requests generalizing t with
  | nil => exact .refl t
  | cons r requests ih => exact (t.extends_respond r).trans (ih (t.respond r).2)

/-! ## Lists -/

theorem filterMap_prefix {α β : Type} {ids ids' : List α} {look look' : α → Option β}
    (longer : ids <+: ids') (kept : ∀ i ∈ ids, look' i = look i) :
    ids.filterMap look <+: ids'.filterMap look' := by
  rw [← List.filterMap_congr kept]
  exact longer.filterMap look'

section Lists

variable (extended : t.Extends t')

include extended

theorem Extends.listed_prefix {α : Type} {part : ClassDecl → List α}
    (grows : ∀ c c', c.Continues c' → part c <+: part c') (frame : Frame) :
    t.listed part frame <+: t'.listed part frame := by
  unfold listed
  cases declared : t.class? frame with
  | none => exact List.nil_prefix
  | some c =>
      obtain ⟨c', declared', continues⟩ := extended.class? declared
      rw [declared']
      exact grows c c' continues

theorem Extends.fieldsOf_prefix (hr : t.Reachable) (frame : Frame) :
    t.fieldsOf frame <+: t'.fieldsOf frame := by
  have longer : t.fieldIds frame <+: t'.fieldIds frame :=
    extended.listed_prefix (fun _ _ continues => continues.fields) frame
  rw [fieldsOf_eq, fieldsOf_eq]
  refine filterMap_prefix longer fun id hid => ?_
  obtain ⟨-, f, hf⟩ := hr.fieldsListed.mem_fieldIds_iff.mp hid
  rw [hf, extended.field? hf]

theorem Extends.membersOf_prefix (hr : t.Reachable) (frame : Frame) :
    t.membersOf frame <+: t'.membersOf frame := by
  have longer : t.memberIds frame <+: t'.memberIds frame :=
    extended.listed_prefix (fun _ _ continues => continues.members) frame
  rw [membersOf_eq, membersOf_eq]
  refine filterMap_prefix longer fun m hm => ?_
  obtain ⟨d, hd, -⟩ := hr.membersListed.mem_memberIds_iff.mp hm
  rw [hd, extended.member? hd]

end Lists

/-! ## Enclosing sites -/

def site? (t : DeclarationTable) (frame : Frame) : Option EnclosingSite :=
  (t.class? frame).bind (·.enclosing)

theorem site?_of_insert {frame : Frame} {c : ClassDecl}
    (changed : t'.classes = t.classes.insert frame c) (other : Frame) :
    t'.site? other = if other = frame then c.enclosing else t.site? other := by
  unfold site? class?
  rw [changed]
  by_cases h : other = frame
  · subst h
    simp
  · simp [h, FiniteMap.get?_insert_of_ne h]

theorem site?_of_insert_same {frame : Frame} {c : ClassDecl}
    (changed : t'.classes = t.classes.insert frame c)
    (same : c.enclosing = (t.classes.get? frame).bind (·.enclosing)) (other : Frame) :
    t'.site? other = t.site? other := by
  rw [site?_of_insert changed]
  split
  · rename_i here
    rw [here, same]
    rfl
  · rfl

theorem site?_respond (t : DeclarationTable) (r : Request) (frame : Frame) :
    (t.respond r).2.site? frame = t.site? frame ∨
      ∃ site m, r = .setEnclosingSite frame site ∧ t.memberAt.get? site.location = some m ∧
        (t.respond r).2.site? frame = some site := by
  cases r with
  | declareClass new name location isFinal =>
      refine .inl ?_
      rcases t.declareClass_cases new name location isFinal with ⟨e, refused⟩ | ⟨fresh, accepted⟩
      · rw [respond, refused]
      · rw [respond, accepted]
        exact site?_of_insert_same rfl (by rw [fresh]; rfl) frame
  | setEnclosingSite inner site =>
      rcases t.setEnclosingSite_cases inner site with ⟨e, refused⟩ | ⟨m, c, inside, -, accepted⟩
      · rw [respond, refused]
        exact .inl rfl
      · rw [respond, accepted, site?_of_insert rfl]
        by_cases named : frame = inner
        · exact .inr ⟨site, m, by rw [named], inside, if_pos named⟩
        · exact .inl (if_neg named)
  | declareField field =>
      refine .inl ?_
      rcases t.declareField_cases field with ⟨e, refused⟩ | ⟨c, -, declared, accepted⟩
      · rw [respond, refused]
        rfl
      · rw [respond, accepted]
        exact site?_of_insert_same rfl (by rw [declared]; rfl) frame
  | declareMember owner kind location receiver =>
      refine .inl ?_
      rcases t.declareMember_cases owner kind location receiver with
        ⟨e, refused⟩ | ⟨c, -, declared, accepted⟩
      · rw [respond, refused]
        rfl
      · rw [respond, accepted]
        exact site?_of_insert_same rfl (by rw [declared]; rfl) frame
  | registerLocation location id =>
      refine .inl ?_
      rcases t.registerLocation_cases location id with
        ⟨e, refused⟩ | ⟨-, known⟩ | ⟨d, -, -, accepted⟩
      · rw [respond, refused]
      · rw [respond, known]
      · rw [respond, accepted]
        rfl

/-- A request that is refused changes nothing. One that is accepted leaves what was declared and
registered as it was, and adds to the lists of a class at their ends only. No request but that for
an enclosing site changes one, and it only does so for the class that it names. -/
theorem Reachable.respond_atomic_and_conservative (hr : t.Reachable) (r : Request) :
    (∀ e, (t.respond r).1 = .error e → (t.respond r).2 = t) ∧
      ((t.respond r).1 = .ok () →
        t.Extends (t.respond r).2 ∧
        (∀ frame, t.fieldsOf frame <+: (t.respond r).2.fieldsOf frame ∧
          t.membersOf frame <+: (t.respond r).2.membersOf frame) ∧
        ∀ frame, (t.respond r).2.site? frame = t.site? frame ∨
          ∃ site, r = .setEnclosingSite frame site ∧ (t.respond r).2.site? frame = some site) := by
  have extended := t.extends_respond r
  constructor
  · intro e told
    rcases t.respond_cases r with ⟨e', refused⟩ | ⟨t', answered, -⟩
    · rw [refused]
    · rw [answered] at told
      cases told
  · intro _
    refine ⟨extended, fun frame => ?_, fun frame => ?_⟩
    · exact ⟨extended.fieldsOf_prefix hr frame, extended.membersOf_prefix hr frame⟩
    · rcases t.site?_respond r frame with same | ⟨site, m, named, -, set⟩
      · exact .inl same
      · exact .inr ⟨site, named, set⟩

def nested : DeclarationTable :=
  collect [.declareClass ⟨1⟩ ⟨1⟩ ⟨1⟩ false, .declareField { id := ⟨⟨1⟩, ⟨2⟩⟩, location := ⟨2⟩ },
    .declareMember ⟨1⟩ .constructor ⟨3⟩ none, .registerLocation ⟨4⟩ ⟨0⟩,
    .declareClass ⟨2⟩ ⟨3⟩ ⟨4⟩ true]

/-- The field is not declared again, a second one comes after it, and the inner class is the only
one whose enclosing site is set. -/
theorem respond_atomic_and_conservative_of_nested :
    nested.Reachable ∧
      (let again := nested.respond (.declareField { id := ⟨⟨1⟩, ⟨2⟩⟩, location := ⟨5⟩ })
       again.1 = .error (.duplicateField ⟨⟨1⟩, ⟨2⟩⟩) ∧ again.2 = nested) ∧
      (let second := nested.respond (.declareField { id := ⟨⟨1⟩, ⟨3⟩⟩, location := ⟨5⟩ })
       second.1 = .ok () ∧ nested.Extends second.2 ∧
         nested.fieldsOf ⟨1⟩ <+: second.2.fieldsOf ⟨1⟩ ∧ (second.2.fieldsOf ⟨1⟩).length = 2) ∧
      (let set := nested.respond (.setEnclosingSite ⟨2⟩ ⟨⟨4⟩, true⟩)
       set.1 = .ok () ∧ nested.Extends set.2 ∧ set.2.site? ⟨1⟩ = nested.site? ⟨1⟩ ∧
         set.2.site? ⟨2⟩ = some ⟨⟨4⟩, true⟩) := by
  have hr : nested.Reachable := reachable_iff.mpr ⟨_, rfl⟩
  refine ⟨hr, ?_, ?_, ?_⟩
  · obtain ⟨refused, -⟩ := hr.respond_atomic_and_conservative
      (.declareField { id := ⟨⟨1⟩, ⟨2⟩⟩, location := ⟨5⟩ })
    have told : (nested.respond (.declareField { id := ⟨⟨1⟩, ⟨2⟩⟩, location := ⟨5⟩ })).1 =
        .error (.duplicateField ⟨⟨1⟩, ⟨2⟩⟩) := by decide +kernel
    exact ⟨told, refused _ told⟩
  · obtain ⟨-, accepted⟩ := hr.respond_atomic_and_conservative
      (.declareField { id := ⟨⟨1⟩, ⟨3⟩⟩, location := ⟨5⟩ })
    have told : (nested.respond (.declareField { id := ⟨⟨1⟩, ⟨3⟩⟩, location := ⟨5⟩ })).1 =
        .ok () := by decide +kernel
    obtain ⟨extended, lists, -⟩ := accepted told
    exact ⟨told, extended, (lists ⟨1⟩).1, by decide +kernel⟩
  · obtain ⟨-, accepted⟩ := hr.respond_atomic_and_conservative
      (.setEnclosingSite ⟨2⟩ ⟨⟨4⟩, true⟩)
    have told : (nested.respond (.setEnclosingSite ⟨2⟩ ⟨⟨4⟩, true⟩)).1 = .ok () := by
      decide +kernel
    obtain ⟨extended, -, sites⟩ := accepted told
    refine ⟨told, extended, ?_, by decide +kernel⟩
    obtain same | ⟨site, named, -⟩ := sites ⟨1⟩
    · exact same
    · cases named

end DeclarationTable

end ObjectInit
