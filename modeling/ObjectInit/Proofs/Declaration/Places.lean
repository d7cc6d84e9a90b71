import Mathlib.Data.List.Nodup
import ObjectInit.Declaration.Table

/-! # Places of declarations

Classes, fields and members are each declared somewhere. A table does not see to it that they are
declared at different places, but programs do.
-/

namespace ObjectInit

inductive Declaration
  | ofClass (frame : Frame)
  | ofField (id : FieldId)
  | ofMember (id : MemberId)
deriving DecidableEq

namespace DeclarationTable

variable {t : DeclarationTable}

def places (t : DeclarationTable) : List (Declaration × Location) :=
  t.classes.entries.map (fun e => (.ofClass e.1, e.2.location)) ++
    (t.fields.entries.map (fun e => (.ofField e.1, e.2.location)) ++
      t.members.toList.map fun d => (.ofMember d.id, d.location))

/-- No two declarations are at the same place. -/
def Apart (t : DeclarationTable) : Prop := (t.places.map (·.2)).Nodup

instance : Decidable t.Apart := inferInstanceAs (Decidable (t.places.map (·.2)).Nodup)

theorem Apart.eq_of_mem (apart : t.Apart) {x y : Declaration} {l : Location}
    (hx : (x, l) ∈ t.places) (hy : (y, l) ∈ t.places) : x = y :=
  congrArg Prod.fst (List.inj_on_of_nodup_map apart hx hy rfl)

theorem ofClass_mem_places {frame : Frame} {c : ClassDecl} (declared : t.class? frame = some c) :
    (.ofClass frame, c.location) ∈ t.places :=
  List.mem_append_left _
    (List.mem_map.mpr ⟨(frame, c), FiniteMap.get?_eq_some_iff.mp declared, rfl⟩)

theorem ofField_mem_places {id : FieldId} {f : FieldDecl} (declared : t.field? id = some f) :
    (.ofField id, f.location) ∈ t.places :=
  List.mem_append_right _ (List.mem_append_left _
    (List.mem_map.mpr ⟨(id, f), FiniteMap.get?_eq_some_iff.mp declared, rfl⟩))

theorem ofMember_mem_places {m : MemberId} {d : MemberDecl} (declared : t.member? m = some d) :
    (.ofMember d.id, d.location) ∈ t.places :=
  List.mem_append_right _ (List.mem_append_right _
    (List.mem_map.mpr ⟨d, Array.mem_toList_iff.mpr (Array.mem_of_getElem? declared), rfl⟩))

end DeclarationTable

end ObjectInit
