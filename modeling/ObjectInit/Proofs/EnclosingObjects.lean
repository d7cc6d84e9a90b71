import ObjectInit.Hierarchy.Bounds
import ObjectInit.Nullness
import ObjectInit.Proofs.Declaration.Nesting
import ObjectInit.SelfQualifier

/-! # The objects around a place

The objects around a place are told from the inside out, up to a limit. Only a class that is inside
itself is told twice.
-/

namespace ObjectInit.Analysis

open DeclarationTable

universe u

variable {V : Type u} {a : Analysis V}

/-- The classes of the current object at a place and of the objects around it. -/
def enclosingClassesAt (a : Analysis V) (l : Location) : List Frame :=
  (a.selfQualifiersAt l).map (·.1)

theorem outerClass?_eq_outerSite? (m : MemberDecl) :
    a.declarations.outerClass? m.owner = (a.outerSite? m).bind a.declarations.classAt? := by
  unfold outerClass? site? outerSite?
  cases (a.declarations.class? m.owner).bind (·.enclosing) with
  | none => rfl
  | some site => cases captures : site.capturesOuter <;> simp [captures]

theorem getElem?_selfQualifiersFrom (limit i : Nat) (l : Location) :
    ((a.selfQualifiersFrom limit l).map (·.1))[i]? =
      if i < limit then (a.declarations.classAt? l).bind (climb a.declarations.outerClass? i)
      else none := by
  induction limit generalizing i l with
  | zero => rfl
  | succ limit ih =>
      unfold selfQualifiersFrom classAt?
      cases a.declarations.enclosingMember? l with
      | none => simp
      | some m =>
          cases i with
          | zero => simp
          | succ i =>
              simp only [List.map_cons, List.getElem?_cons_succ, Option.map_some,
                Option.bind_some, climb_succ, outerClass?_eq_outerSite?, Nat.succ_lt_succ_iff]
              cases a.outerSite? m with
              | none => simp
              | some site => exact ih i site

theorem getElem?_enclosingClassesAt (l : Location) {i : Nat} (hi : i < enclosingLimit) :
    (a.enclosingClassesAt l)[i]? =
      (a.declarations.classAt? l).bind (climb a.declarations.outerClass? i) := by
  unfold enclosingClassesAt selfQualifiersAt
  rw [getElem?_selfQualifiersFrom, if_pos hi]

theorem length_enclosingClassesAt_le (a : Analysis V) (l : Location) :
    (a.enclosingClassesAt l).length ≤ enclosingLimit := by
  refine List.getElem?_eq_none_iff.mp ?_
  unfold enclosingClassesAt selfQualifiersAt
  rw [getElem?_selfQualifiersFrom, if_neg (Nat.lt_irrefl _)]

/-! ## Classes told twice -/

section Told

variable {l : Location} {frame : Frame} {i : Nat}

theorem getElem?_add_of_told (told : (a.enclosingClassesAt l)[i]? = some frame) {steps : Nat}
    (within : i + steps < enclosingLimit) :
    (a.enclosingClassesAt l)[i + steps]? = climb a.declarations.outerClass? steps frame := by
  rw [getElem?_enclosingClassesAt l (Nat.lt_of_le_of_lt (Nat.le_add_right i steps) within)] at told
  obtain ⟨inner, inside, up⟩ := Option.bind_eq_some_iff.mp told
  rw [getElem?_enclosingClassesAt l within, inside, Option.bind_some, climb_of_met up]

/-- Two equal entries are as many links apart as positions. -/
theorem exists_cycle_of_not_nodup (twice : ¬ (a.enclosingClassesAt l).Nodup) :
    ∃ (i : Nat) (frame : Frame) (steps : Nat), (a.enclosingClassesAt l)[i]? = some frame ∧
      0 < steps ∧ steps < enclosingLimit ∧
      climb a.declarations.outerClass? steps frame = some frame := by
  rw [List.nodup_iff_getElem?_ne_getElem?] at twice
  push Not at twice
  obtain ⟨i, j, hij, hj, same⟩ := twice
  have within : j < enclosingLimit := Nat.lt_of_lt_of_le hj (a.length_enclosingClassesAt_le l)
  have told := List.getElem?_eq_getElem (Nat.lt_trans hij hj)
  have apart : i + (j - i) = j := Nat.add_sub_cancel' (Nat.le_of_lt hij)
  refine ⟨i, _, j - i, told, Nat.sub_pos_of_lt hij, ?_, ?_⟩
  · exact Nat.lt_of_le_of_lt (Nat.sub_le j i) within
  · rw [← getElem?_add_of_told told (apart.symm ▸ within), apart, ← same, told]

theorem not_nodup_of_cycle (inside : a.declarations.classAt? l = some frame) {steps : Nat}
    (pos : 0 < steps) (within : steps < enclosingLimit)
    (cycle : climb a.declarations.outerClass? steps frame = some frame) :
    ¬ (a.enclosingClassesAt l).Nodup := by
  intro distinct
  have told : (a.enclosingClassesAt l)[0]? = some frame := by
    rw [getElem?_enclosingClassesAt l (by decide), inside]
    rfl
  have again : (a.enclosingClassesAt l)[steps]? = some frame := by
    rw [getElem?_enclosingClassesAt l within, inside, Option.bind_some, cycle]
  obtain ⟨hlen, -⟩ := List.getElem?_eq_some_iff.mp again
  exact List.nodup_iff_getElem?_ne_getElem?.mp distinct 0 steps pos hlen (told.trans again.symm)

theorem nodup_of_length_lt (short : (a.enclosingClassesAt l).length < enclosingLimit) :
    (a.enclosingClassesAt l).Nodup := by
  by_contra twice
  obtain ⟨i, frame, steps, told, pos, -, cycle⟩ := exists_cycle_of_not_nodup twice
  obtain ⟨hi, -⟩ := List.getElem?_eq_some_iff.mp told
  have onward := Nat.add_sub_cancel' (Nat.le_of_lt hi)
  refine climb_ne_none_of_cycle cycle pos ((a.enclosingClassesAt l).length - i) ?_
  rw [← getElem?_add_of_told told (onward.symm ▸ short), onward]
  exact List.getElem?_eq_none (Nat.le_refl _)

end Told

theorem nodup_everywhere_iff : (∀ l, (a.enclosingClassesAt l).Nodup) ↔
    ∀ frame steps, 0 < steps → steps < enclosingLimit →
      climb a.declarations.outerClass? steps frame ≠ some frame := by
  constructor
  · intro distinct frame steps pos within cycle
    obtain ⟨l, inside⟩ := exists_place_of_cycle pos cycle
    exact not_nodup_of_cycle inside pos within cycle (distinct l)
  · intro apart l
    by_contra twice
    obtain ⟨i, frame, steps, -, pos, within, cycle⟩ := exists_cycle_of_not_nodup twice
    exact apart frame steps pos within cycle

/-- Whatever is declared, the classes around a place are told from the inside out. All are different
at every place if and only if no class leads back to itself within the limit, and in particular if
no request has put a class inside itself. A list that ends before the limit never repeats a
class. -/
theorem enclosing_classes_distinct_iff (requests : List Request) (oracle : TypeOracle)
    (options : Options) (results : FlowResults V) :
    let a : Analysis V := ⟨collect requests, oracle, options, results⟩
    let outer? := (collect requests).outerClass?
    (∀ l i, i < enclosingLimit →
        (a.enclosingClassesAt l)[i]? = ((collect requests).classAt? l).bind (climb outer? i)) ∧
      (∀ l, (a.enclosingClassesAt l).length < enclosingLimit → (a.enclosingClassesAt l).Nodup) ∧
      ((∀ l, (a.enclosingClassesAt l).Nodup) ↔
        ∀ frame steps, 0 < steps → steps < enclosingLimit →
          climb outer? steps frame ≠ some frame) ∧
      ((∀ before r after, requests = before ++ r :: after →
          ¬ (collect before).PutsInsideItself r) → ∀ l, (a.enclosingClassesAt l).Nodup) := by
  intro a outer?
  refine ⟨fun l i hi => getElem?_enclosingClassesAt l hi, fun l => nodup_of_length_lt,
    nodup_everywhere_iff, ?_⟩
  intro apart
  refine nodup_everywhere_iff.mpr fun frame steps pos _ => ?_
  exact nested_collect requests apart frame steps pos

/-- A class with a constructor, and a class with a constructor that is created there. -/
def localClass : List Request :=
  [.declareClass ⟨1⟩ ⟨1⟩ ⟨9⟩ false, .declareMember ⟨1⟩ .constructor ⟨10⟩ none,
    .declareClass ⟨2⟩ ⟨2⟩ ⟨19⟩ false, .declareMember ⟨2⟩ .constructor ⟨20⟩ none,
    .setEnclosingSite ⟨2⟩ ⟨⟨10⟩, true⟩]

/-- In the inner constructor both classes are told, each once. -/
theorem enclosing_classes_distinct_iff_of_localClass :
    let a : Analysis TrackedValue :=
      ⟨collect localClass, (Hierarchy.withRoot ⟨0⟩).oracle, {}, ∅⟩
    (∀ before r after, localClass = before ++ r :: after →
        ¬ (collect before).PutsInsideItself r) ∧
      (∀ l, (a.enclosingClassesAt l).Nodup) ∧ a.enclosingClassesAt ⟨20⟩ = [⟨2⟩, ⟨1⟩] := by
  intro a
  have apart : ∀ before r after, localClass = before ++ r :: after →
      ¬ (collect before).PutsInsideItself r := by
    rintro before _ after split ⟨inner, site, outer, steps, rfl, -, -, inside, met⟩
    -- only the last request sets a site
    have first : before = localClass.take 4 := by
      rcases before with _ | ⟨_, _ | ⟨_, _ | ⟨_, _ | ⟨_, _ | ⟨_, before⟩⟩⟩⟩⟩ <;>
        simp [localClass] at split ⊢
      exact ⟨split.1.symm, split.2.1.symm, split.2.2.1.symm, split.2.2.2.1.symm⟩
    subst first
    cases split
    have hinside : (collect (localClass.take 4)).classAt? ⟨10⟩ = some ⟨1⟩ := by decide +kernel
    have top : (collect (localClass.take 4)).outerClass? ⟨1⟩ = none := by decide +kernel
    obtain rfl : ⟨1⟩ = outer := Option.some.inj (hinside.symm.trans inside)
    cases steps with
    | zero => cases met
    | succ steps =>
        rw [climb_succ, top] at met
        cases met
  obtain ⟨-, -, -, distinct⟩ := enclosing_classes_distinct_iff localClass
    (Hierarchy.withRoot ⟨0⟩).oracle {} (∅ : FlowResults TrackedValue)
  exact ⟨apart, distinct apart, by decide +kernel⟩

/-- A class whose enclosing site is in its own constructor. -/
def selfEnclosed : DeclarationTable :=
  collect [.declareClass ⟨1⟩ ⟨1⟩ ⟨9⟩ false, .declareMember ⟨1⟩ .constructor ⟨10⟩ none,
    .setEnclosingSite ⟨1⟩ ⟨⟨10⟩, true⟩]

def selfEnclosedAnalysis : Analysis TrackedValue :=
  ⟨selfEnclosed, (Hierarchy.withRoot ⟨0⟩).oracle, {}, ∅⟩

/-- Such a class is accepted, and is told as often as the limit allows. -/
theorem self_enclosed_class_repeats :
    selfEnclosed.Reachable ∧
      selfEnclosedAnalysis.enclosingClassesAt ⟨10⟩ = List.replicate enclosingLimit ⟨1⟩ ∧
      ¬ (selfEnclosedAnalysis.enclosingClassesAt ⟨10⟩).Nodup := by
  refine ⟨reachable_iff.mpr ⟨_, rfl⟩, ?_, ?_⟩
  · decide +kernel
  · decide +kernel

end ObjectInit.Analysis
