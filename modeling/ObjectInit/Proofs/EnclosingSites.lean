import ObjectInit.Data.Climb
import ObjectInit.Proofs.Declaration.Requests
import ObjectInit.SelfQualifier

/-! # The sites around a place

An object that keeps a reference to the one that created it leads from a place inside its class to
the site where the class is created, and so on outwards.
-/

namespace ObjectInit

universe u

namespace DeclarationTable

/-- The site to go on at, outwards: a place in a member leads to the enclosing site of the member's
class, if that captures the outer object. -/
def outwardSite? (t : DeclarationTable) (l : Location) : Option Location :=
  (t.enclosingMember? l).bind fun m =>
    (t.site? m.owner).bind fun site => if site.capturesOuter then some site.location else none

theorem outwardSite?_of_outside {t : DeclarationTable} {l : Location}
    (outside : t.enclosingMember? l = none) : t.outwardSite? l = none := by
  rw [outwardSite?, outside, Option.bind_none]

end DeclarationTable

namespace Analysis

variable {V : Type u} {a : Analysis V} {l : Location}

def objectAt? (a : Analysis V) (l : Location) : Option (Frame × Qualifier) :=
  (a.declarations.enclosingMember? l).map fun m => (m.owner, a.selfQualifierAt l)

theorem outwardSite?_of_no_object (absent : a.objectAt? l = none) :
    a.declarations.outwardSite? l = none :=
  DeclarationTable.outwardSite?_of_outside (Option.map_eq_none_iff.mp absent)

theorem outwardSite?_of_inside {m : MemberDecl}
    (inside : a.declarations.enclosingMember? l = some m) :
    a.declarations.outwardSite? l = a.outerSite? m := by
  rw [DeclarationTable.outwardSite?, inside, Option.bind_some]
  unfold DeclarationTable.site? outerSite?
  cases (a.declarations.class? m.owner).bind (·.enclosing) with
  | none => rfl
  | some site => rfl

theorem selfQualifierAt_of_inside {m : MemberDecl}
    (inside : a.declarations.enclosingMember? l = some m) :
    a.selfQualifierAt l =
      if a.options.assumeInitialized then .initialized else a.selfQualifierIn m l := by
  rw [selfQualifierAt, inside]

theorem selfQualifiersFrom_succ (limit : Nat) (l : Location) :
    a.selfQualifiersFrom (limit + 1) l =
      match a.objectAt? l with
      | none => []
      | some object => object :: match a.declarations.outwardSite? l with
        | some site => a.selfQualifiersFrom limit site
        | none => [] := by
  rw [selfQualifiersFrom, objectAt?]
  cases inside : a.declarations.enclosingMember? l with
  | none => rfl
  | some m =>
      rw [outwardSite?_of_inside inside, selfQualifierAt_of_inside inside]
      rfl

theorem getElem?_selfQualifiersFrom_eq_objectAt? (limit i : Nat) (l : Location) :
    (a.selfQualifiersFrom limit l)[i]? =
      if i < limit then (climb a.declarations.outwardSite? i l).bind a.objectAt? else none := by
  induction limit generalizing i l with
  | zero => rfl
  | succ limit ih =>
      rw [selfQualifiersFrom_succ]
      cases found : a.objectAt? l with
      | none => cases i <;> simp [climb_succ, found, outwardSite?_of_no_object found]
      | some object =>
          cases i with
          | zero => simp [found]
          | succ i =>
              rw [List.getElem?_cons_succ, climb_succ]
              simp only [Nat.succ_lt_succ_iff]
              cases a.declarations.outwardSite? l with
              | none => simp
              | some site => exact ih i site

theorem selfQualifiersFrom_eq_take (limit more : Nat) (l : Location) :
    a.selfQualifiersFrom limit l =
      ((trail a.declarations.outwardSite? (limit + more) l).filterMap a.objectAt?).take limit := by
  induction limit generalizing l with
  | zero => rfl
  | succ limit ih =>
      rw [selfQualifiersFrom_succ, Nat.succ_add, trail]
      cases found : a.objectAt? l with
      | none =>
          -- no site follows a place outside every member, so going on finds nothing
          rw [outwardSite?_of_no_object found]
          simp [found]
      | some object =>
          rw [List.filterMap_cons_some found, List.take_succ_cons]
          cases a.declarations.outwardSite? l with
          | none => simp
          | some site => exact congrArg (object :: ·) (ih site)

/-- However far the sites around a place are followed, the objects told for it are those at the
first sites that lie in a member, as many as the limit allows, each with the qualifier that the
current object has at its site. No site before one that lies in a member is left out: the object
told at a position is the one at the site that so many links lead to. -/
theorem selfQualifiersAt_eq_objects_at_sites (a : Analysis V) (l : Location) :
    (∀ more, a.selfQualifiersAt l =
        ((trail a.declarations.outwardSite? (enclosingLimit + more) l).filterMap
          a.objectAt?).take enclosingLimit) ∧
      ∀ i, (a.selfQualifiersAt l)[i]? =
        if i < enclosingLimit then (climb a.declarations.outwardSite? i l).bind a.objectAt?
        else none := by
  constructor
  · intro more
    exact selfQualifiersFrom_eq_take enclosingLimit more l
  · intro i
    exact getElem?_selfQualifiersFrom_eq_objectAt? enclosingLimit i l

end Analysis

end ObjectInit
