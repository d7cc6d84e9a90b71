import ObjectInit.Proofs.Declaration.Requests

/-! # What declarations leave of other classes

Members and fields of all classes share one numbering and one map, but a request writes to the entry
of at most one class.
-/

namespace ObjectInit.DeclarationTable

variable {t t' : DeclarationTable} {frame : Frame}

/-- The class that a request declares something of. A place belongs to no class by itself. -/
def Request.subject? : Request → Option Frame
  | .declareClass frame _ _ _ => some frame
  | .setEnclosingSite inner _ => some inner
  | .declareField field => some field.id.owner
  | .declareMember owner _ _ _ => some owner
  | .registerLocation _ _ => none

theorem classes_respond (t : DeclarationTable) (r : Request) :
    (t.respond r).2.classes = t.classes ∨
      ∃ frame c, r.subject? = some frame ∧
        (t.respond r).2.classes = t.classes.insert frame c := by
  cases r with
  | declareClass frame name location isFinal =>
      rcases t.declareClass_cases frame name location isFinal with ⟨e, refused⟩ | ⟨-, accepted⟩
      · exact .inl (by rw [respond, refused])
      · exact .inr ⟨frame, _, rfl, by rw [respond, accepted]⟩
  | setEnclosingSite inner site =>
      rcases t.setEnclosingSite_cases inner site with ⟨e, refused⟩ | ⟨m, c, -, -, accepted⟩
      · exact .inl (by rw [respond, refused])
      · exact .inr ⟨inner, _, rfl, by rw [respond, accepted]⟩
  | declareField field =>
      rcases t.declareField_cases field with ⟨e, refused⟩ | ⟨c, -, -, accepted⟩
      · exact .inl (by rw [respond, refused]; rfl)
      · exact .inr ⟨field.id.owner, _, rfl, by rw [respond, accepted]; rfl⟩
  | declareMember owner kind location receiver =>
      rcases t.declareMember_cases owner kind location receiver with
        ⟨e, refused⟩ | ⟨c, -, -, accepted⟩
      · exact .inl (by rw [respond, refused]; rfl)
      · exact .inr ⟨owner, _, rfl, by rw [respond, accepted]; rfl⟩
  | registerLocation location id =>
      refine .inl ?_
      rcases t.registerLocation_cases location id with
        ⟨e, refused⟩ | ⟨-, known⟩ | ⟨d, -, -, accepted⟩
      · rw [respond, refused]
      · rw [respond, known]
      · rw [respond, accepted]

theorem class?_respond_of_other {r : Request} (other : r.subject? ≠ some frame) :
    (t.respond r).2.class? frame = t.class? frame := by
  unfold class?
  rcases t.classes_respond r with same | ⟨subject, c, named, inserted⟩
  · rw [same]
  · have apart : frame ≠ subject := by
      rintro rfl
      exact other named
    rw [inserted, FiniteMap.get?_insert_of_ne apart]

/-! ## A class in a longer table -/

/-- More may have been declared in the second table, but nothing more of the class. -/
structure KeepsClass (t t' : DeclarationTable) (frame : Frame) : Prop where
  extended : t.Extends t'
  class?_eq : t'.class? frame = t.class? frame

theorem keepsClass_respondAll (t : DeclarationTable) {requests : List Request}
    (others : ∀ r ∈ requests, r.subject? ≠ some frame) :
    t.KeepsClass (t.respondAll requests) frame := by
  refine ⟨t.extends_respondAll requests, ?_⟩
  induction requests generalizing t with
  | nil => rfl
  | cons r requests ih =>
      have first : (t.respond r).2.class? frame = t.class? frame :=
        class?_respond_of_other (others r List.mem_cons_self)
      have rest : ((t.respond r).2.respondAll requests).class? frame =
          (t.respond r).2.class? frame :=
        ih _ fun r' later => others r' (List.mem_cons_of_mem r later)
      exact rest.trans first

namespace KeepsClass

variable (kept : t.KeepsClass t' frame)

include kept

theorem isFinalClass_eq : t'.isFinalClass frame = t.isFinalClass frame := by
  unfold isFinalClass
  rw [kept.class?_eq]

/-! ### Fields and members -/

variable (hr : t.Reachable)

include hr

theorem fieldsOf_eq : t'.fieldsOf frame = t.fieldsOf frame := by
  have listed : t'.fieldIds frame = t.fieldIds frame := by
    unfold fieldIds
    rw [kept.class?_eq]
  rw [DeclarationTable.fieldsOf_eq, DeclarationTable.fieldsOf_eq, listed]
  refine List.filterMap_congr fun id hid => ?_
  obtain ⟨-, f, hf⟩ := hr.fieldsListed.mem_fieldIds_iff.mp hid
  rw [hf, kept.extended.field? hf]

theorem instanceFieldsOf_eq : t'.instanceFieldsOf frame = t.instanceFieldsOf frame := by
  unfold instanceFieldsOf
  rw [kept.fieldsOf_eq hr]

theorem staticFieldsOf_eq : t'.staticFieldsOf frame = t.staticFieldsOf frame := by
  unfold staticFieldsOf
  rw [kept.fieldsOf_eq hr]

theorem allFieldsInitializedOnly_eq :
    t'.allFieldsInitializedOnly frame = t.allFieldsInitializedOnly frame := by
  unfold allFieldsInitializedOnly
  rw [kept.instanceFieldsOf_eq hr]

theorem membersOf_eq : t'.membersOf frame = t.membersOf frame := by
  have listed : t'.memberIds frame = t.memberIds frame := by
    unfold memberIds DeclarationTable.listed
    rw [kept.class?_eq]
  rw [DeclarationTable.membersOf_eq, DeclarationTable.membersOf_eq, listed]
  refine List.filterMap_congr fun m hm => ?_
  obtain ⟨d, hd, -⟩ := hr.membersListed.mem_memberIds_iff.mp hm
  rw [hd, kept.extended.member? hd]

theorem membersOfKind_eq (kind : MemberKind) :
    t'.membersOfKind frame kind = t.membersOfKind frame kind := by
  unfold membersOfKind
  rw [kept.membersOf_eq hr]

end KeepsClass

end ObjectInit.DeclarationTable
