import ObjectInit.Proofs.Hierarchy.Bounds

/-! # The bounds a hierarchy answers with

There is an upper bound exactly where one of the minimal frames above both is the least, or is a
class: of classes there is never more than one. There is a lower bound exactly where a greatest
frame is below both, so the check that the qualifiers make of it never fails.
-/

namespace ObjectInit

namespace TypeOracle

variable {o : TypeOracle} {a b c m : Frame}

/-- The frame is above both, and nothing else that is above both is below it. -/
def IsMinimalAbove (o : TypeOracle) (a b m : Frame) : Prop :=
  o.isSubtype a m = true ∧ o.isSubtype b m = true ∧
    ∀ d, o.isSubtype a d = true → o.isSubtype b d = true → o.isSubtype d m = true → d = m

theorem isMinimalAbove_comm : o.IsMinimalAbove a b m ↔ o.IsMinimalAbove b a m := by
  constructor
  · intro ⟨ham, hbm, unique⟩
    exact ⟨hbm, ham, fun d hbd had => unique d had hbd⟩
  · intro ⟨hbm, ham, unique⟩
    exact ⟨ham, hbm, fun d had hbd => unique d hbd had⟩

theorem isLeastAbove_comm : o.IsLeastAbove a b c ↔ o.IsLeastAbove b a c :=
  ⟨IsLeastAbove.symm, IsLeastAbove.symm⟩

theorem isGreatestBelow_comm : o.IsGreatestBelow a b c ↔ o.IsGreatestBelow b a c :=
  ⟨IsGreatestBelow.symm, IsGreatestBelow.symm⟩

theorem IsLeastAbove.eq_of_isMinimalAbove (hc : o.IsLeastAbove a b c)
    (hm : o.IsMinimalAbove a b m) : c = m :=
  hm.2.2 c hc.1 hc.2.1 (hc.2.2 m hm.1 hm.2.1)

end TypeOracle

namespace Hierarchy

variable {h : Hierarchy} {a b c : Frame}

/-! ## Upper bounds -/

theorem mem_lowestAncestors_iff (ha : h.knows a = true) (hb : h.knows b = true) :
    c ∈ h.lowestAncestors a b ↔ h.oracle.IsMinimalAbove a b c := by
  rw [mem_lowestAncestors ha hb, and_assoc]
  rfl

theorem lub?_of_isSubtype (hab : h.isSubtype a b = true) : h.lub? a b = some b := by
  rw [lub?_eq_lowest, if_pos hab]

theorem lub?_of_isSupertype (hab : h.isSubtype a b = false) (hba : h.isSubtype b a = true) :
    h.lub? a b = some a := by
  rw [lub?_eq_lowest, if_neg (Bool.eq_false_iff.mp hab), if_pos hba]

theorem ParentsFirst.isMinimalAbove_of_isLeastAbove (hh : h.ParentsFirst)
    (hc : h.oracle.IsLeastAbove a b c) : h.oracle.IsMinimalAbove a b c :=
  ⟨hc.1, hc.2.1, fun d had hbd hdc => hh.isSubtype_antisymm hdc (hc.2.2 d had hbd)⟩

theorem Reachable.lub?_eq_some_iff (hr : h.Reachable) (hs : h.Shallow) (ha : h.knows a = true)
    (hb : h.knows b = true) :
    h.lub? a b = some c ↔ h.oracle.IsMinimalAbove a b c ∧
      (h.oracle.IsLeastAbove a b c ∨ h.isInterface c = false) := by
  have answered : ∀ {m}, h.oracle.IsLeastAbove a b m → (some m = some c ↔
      h.oracle.IsMinimalAbove a b c ∧
        (h.oracle.IsLeastAbove a b c ∨ h.isInterface c = false)) := by
    intro m hm
    rw [Option.some_inj]
    constructor
    · rintro rfl
      exact ⟨hr.parentsFirst.isMinimalAbove_of_isLeastAbove hm, .inl hm⟩
    · exact fun hc => hm.eq_of_isMinimalAbove hc.1
  cases hab : h.isSubtype a b with
  | true =>
      rw [lub?_of_isSubtype hab]
      exact answered (isLeastAbove_of_isSubtype hab)
  | false =>
      cases hba : h.isSubtype b a with
      | true =>
          rw [lub?_of_isSupertype hab hba]
          exact answered (isLeastAbove_of_isSubtype hba).symm
      | false =>
          rw [lub?_of_apart ⟨hab, hba⟩]
          cases hsole : sole? (h.lowestAncestors a b) with
          | some m => exact answered ((hr.sole?_lowestAncestors_eq_some_iff hs ha hb).mp hsole)
          | none =>
              have no_least : ¬h.oracle.IsLeastAbove a b c := fun hc => by
                rw [(hr.sole?_lowestAncestors_eq_some_iff hs ha hb).mpr hc] at hsole
                cases hsole
              rw [Option.none_or, or_iff_right no_least, ← mem_lowestAncestors_iff ha hb,
                ← mem_lowestClasses]
              exact ⟨mem_of_sole?, hr.sole?_lowestClasses hs ha hb⟩

theorem Reachable.lub?_comm (hr : h.Reachable) (hs : h.Shallow) (ha : h.knows a = true)
    (hb : h.knows b = true) : h.lub? b a = h.lub? a b := by
  refine Option.ext fun c => ?_
  rw [hr.lub?_eq_some_iff hs hb ha, hr.lub?_eq_some_iff hs ha hb,
    TypeOracle.isMinimalAbove_comm, TypeOracle.isLeastAbove_comm]

theorem Reachable.exists_isMinimalAbove (hr : h.Reachable) (hs : h.Shallow)
    (hac : h.isSubtype a c = true) (hbc : h.isSubtype b c = true) :
    ∃ m, h.oracle.IsMinimalAbove a b m ∧ h.isSubtype m c = true := by
  have ha := (knows_of_isSubtype hac).1
  have hb := (knows_of_isSubtype hbc).1
  have hc : c ∈ h.commonAncestors a b := (mem_commonAncestors ha hb).mpr ⟨hac, hbc⟩
  obtain ⟨m, hm, hmc⟩ := (hr.ranked_commonAncestors hs ha hb).exists_foremost hc
  rw [← mostSpecific_eq_foremost] at hm
  exact ⟨m, (mem_lowestAncestors_iff ha hb).mp hm, hmc⟩

theorem Reachable.exists_two_minimal (hr : h.Reachable) (hs : h.Shallow) (ha : h.knows a = true)
    (hb : h.knows b = true) (no_least : ¬∃ c, h.oracle.IsLeastAbove a b c) :
    ∃ m n, m ≠ n ∧ h.oracle.IsMinimalAbove a b m ∧ h.oracle.IsMinimalAbove a b n := by
  obtain ⟨m, hm, -⟩ := hr.exists_isMinimalAbove hs (hr.isSubtype_root ha) (hr.isSubtype_root hb)
  -- The minimal frame below one that the first is not below is another one.
  have other : ∃ d, h.isSubtype a d = true ∧ h.isSubtype b d = true ∧
      h.isSubtype m d = false := by
    refine Classical.byContradiction fun hall => ?_
    refine no_least ⟨m, hm.1, hm.2.1, fun d had hbd => ?_⟩
    cases hmd : h.isSubtype m d with
    | true => exact hmd
    | false => exact absurd ⟨d, had, hbd, hmd⟩ hall
  obtain ⟨d, had, hbd, hmd⟩ := other
  obtain ⟨n, hn, hnd⟩ := hr.exists_isMinimalAbove hs had hbd
  refine ⟨m, n, ?_, hm, hn⟩
  rintro rfl
  rw [hnd] at hmd
  cases hmd

theorem Reachable.frameLub_isSubtype_class (hr : h.Reachable) (hs : h.Shallow)
    (class_c : h.isInterface c = false) (hac : h.isSubtype a c = true)
    (hbc : h.isSubtype b c = true) : h.isSubtype (h.oracle.frameLub a b) c = true :=
  (hr.frameLub_isSubtype_iff hs hac hbc).mpr
    (.inr ⟨c, class_c, hac, hbc, isSubtype_refl (knows_of_isSubtype hac).2⟩)

/-- The upper bound that a hierarchy answers with is minimal, is the least one if there is any, and
does not depend on the order of the two. Without an answer there are several minimal frames, and
these are interfaces. The bound that the qualifiers take is below every class above both. -/
theorem Reachable.lub?_as_good_as_possible (hr : h.Reachable) (hs : h.Shallow)
    (ha : h.knows a = true) (hb : h.knows b = true) :
    (∀ c, h.lub? a b = some c → h.oracle.IsMinimalAbove a b c) ∧
      (∀ c, h.oracle.IsLeastAbove a b c → h.lub? a b = some c) ∧
      (h.lub? a b = none →
        (∃ m n, m ≠ n ∧ h.oracle.IsMinimalAbove a b m ∧ h.oracle.IsMinimalAbove a b n) ∧
          ∀ m, h.oracle.IsMinimalAbove a b m → h.isInterface m = true) ∧
      h.lub? b a = h.lub? a b ∧
      ∀ m, h.isInterface m = false → h.isSubtype a m = true → h.isSubtype b m = true →
        h.isSubtype (h.oracle.frameLub a b) m = true := by
  have least : ∀ c, h.oracle.IsLeastAbove a b c → h.lub? a b = some c := fun c hc =>
    (hr.lub?_eq_some_iff hs ha hb).mpr
      ⟨hr.parentsFirst.isMinimalAbove_of_isLeastAbove hc, .inl hc⟩
  refine ⟨?minimal, least, ?none, hr.lub?_comm hs ha hb, ?classes⟩
  case minimal => exact fun c hc => ((hr.lub?_eq_some_iff hs ha hb).mp hc).1
  case none =>
    intro unanswered
    refine ⟨hr.exists_two_minimal hs ha hb ?_, fun m hm => ?_⟩
    · rintro ⟨c, hc⟩
      rw [least c hc] at unanswered
      cases unanswered
    · cases class_m : h.isInterface m with
      | true => rfl
      | false =>
          rw [(hr.lub?_eq_some_iff hs ha hb).mpr ⟨hm, .inr class_m⟩] at unanswered
          cases unanswered
  case classes => exact fun m class_m => hr.frameLub_isSubtype_class hs class_m

/-- Two interfaces, two classes that implement both, and a class that extends the second of them
and implements a third interface. -/
def doubled : Hierarchy :=
  let interfaces := (((Hierarchy.withRoot ⟨0⟩).addInterface ⟨1⟩ []).2.addInterface ⟨2⟩ []).2
  let first := (interfaces.addClass ⟨3⟩ none [⟨1⟩, ⟨2⟩] false).2
  let second := (first.addClass ⟨4⟩ none [⟨1⟩, ⟨2⟩] false).2
  ((second.addInterface ⟨5⟩ []).2.addClass ⟨6⟩ (some ⟨4⟩) [⟨5⟩] false).2

theorem doubled_reachable : doubled.Reachable :=
  .addClass _ _ _ _ (.addInterface _ _ (.addClass _ _ _ _ (.addClass _ _ _ _
    (.addInterface _ _ (.addInterface _ _ (.withRoot _))))))

theorem doubled_shallow : doubled.Shallow :=
  doubled_reachable.parentsFirst.shallow (by decide +kernel)

/-- For the two classes there is no answer: several interfaces are minimal above them, and the bound
that the qualifiers take is below the root, which is the only class above both. -/
theorem lub?_as_good_as_possible_of_doubled :
    (doubled.Reachable ∧ doubled.Shallow) ∧
      (doubled.knows ⟨3⟩ = true ∧ doubled.knows ⟨4⟩ = true) ∧
      doubled.lub? ⟨3⟩ ⟨4⟩ = none ∧ doubled.lub? ⟨4⟩ ⟨3⟩ = none ∧
      (∃ m n, m ≠ n ∧ doubled.oracle.IsMinimalAbove ⟨3⟩ ⟨4⟩ m ∧
        doubled.oracle.IsMinimalAbove ⟨3⟩ ⟨4⟩ n ∧
        doubled.isInterface m = true ∧ doubled.isInterface n = true) ∧
      doubled.isSubtype (doubled.oracle.frameLub ⟨3⟩ ⟨4⟩) root = true := by
  have known : doubled.knows ⟨3⟩ = true ∧ doubled.knows ⟨4⟩ = true := by decide +kernel
  have unanswered : doubled.lub? ⟨3⟩ ⟨4⟩ = none := by decide +kernel
  obtain ⟨-, -, none, comm, classes⟩ :=
    doubled_reachable.lub?_as_good_as_possible doubled_shallow known.1 known.2
  obtain ⟨⟨m, n, different, hm, hn⟩, interfaces⟩ := none unanswered
  exact ⟨⟨doubled_reachable, doubled_shallow⟩, known, unanswered, comm.trans unanswered,
    ⟨m, n, different, hm, hn, interfaces m hm, interfaces n hn⟩,
    classes root (by decide +kernel) (by decide +kernel) (by decide +kernel)⟩

/-! ## Lower bounds -/

theorem glb?_of_isSubtype (hab : h.isSubtype a b = true) : h.glb? a b = some a := by
  rw [glb?, if_pos hab]

theorem glb?_of_isSupertype (hab : h.isSubtype a b = false) (hba : h.isSubtype b a = true) :
    h.glb? a b = some b := by
  rw [glb?, if_neg (Bool.eq_false_iff.mp hab), if_pos hba]

theorem frameGlb?_eq_glb? (ha : h.knows a = true) (hb : h.knows b = true) :
    h.oracle.frameGlb? a b = h.glb? a b := by
  cases hab : h.isSubtype a b with
  | true => rw [frameGlb?_of_isSubtype hab, glb?_of_isSubtype hab]
  | false =>
      cases hba : h.isSubtype b a with
      | true => rw [frameGlb?_of_isSupertype hab hba, glb?_of_isSupertype hab hba]
      | false => rw [frameGlb?_of_apart ha hb ⟨hab, hba⟩, glb?_of_apart ⟨hab, hba⟩]

theorem Reachable.glb?_eq_some_iff (hr : h.Reachable) (hs : h.Shallow) (ha : h.knows a = true)
    (hb : h.knows b = true) : h.glb? a b = some c ↔ h.oracle.IsGreatestBelow a b c := by
  rw [← frameGlb?_eq_glb? ha hb]
  exact hr.frameGlb?_eq_some_iff hs ha hb

/-- A hierarchy answers with a lower bound exactly where there is a greatest frame below both, and
then with that. The order of the two does not matter, and the bound that the qualifiers take is the
answer. -/
theorem Reachable.glb?_exists_iff_greatest (hr : h.Reachable) (hs : h.Shallow)
    (ha : h.knows a = true) (hb : h.knows b = true) :
    (∀ g, h.glb? a b = some g ↔ h.oracle.IsGreatestBelow a b g) ∧
      h.glb? b a = h.glb? a b ∧
      h.oracle.frameGlb? a b = h.glb? a b := by
  refine ⟨fun g => hr.glb?_eq_some_iff hs ha hb, ?_, frameGlb?_eq_glb? ha hb⟩
  refine Option.ext fun g => ?_
  rw [hr.glb?_eq_some_iff hs hb ha, hr.glb?_eq_some_iff hs ha hb, TypeOracle.isGreatestBelow_comm]

/-- The second class and the third interface have a greatest frame below them. The first two
interfaces have none, though there are frames below both. -/
theorem glb?_exists_iff_greatest_of_doubled :
    (doubled.Reachable ∧ doubled.Shallow) ∧
      (doubled.knows ⟨1⟩ = true ∧ doubled.knows ⟨2⟩ = true ∧ doubled.knows ⟨4⟩ = true ∧
        doubled.knows ⟨5⟩ = true) ∧
      doubled.oracle.IsGreatestBelow ⟨4⟩ ⟨5⟩ ⟨6⟩ ∧ doubled.glb? ⟨5⟩ ⟨4⟩ = some ⟨6⟩ ∧
      doubled.oracle.frameGlb? ⟨1⟩ ⟨2⟩ = none ∧
      (doubled.isSubtype ⟨3⟩ ⟨1⟩ = true ∧ doubled.isSubtype ⟨3⟩ ⟨2⟩ = true) ∧
      ¬∃ g, doubled.oracle.IsGreatestBelow ⟨1⟩ ⟨2⟩ g := by
  have known : doubled.knows ⟨1⟩ = true ∧ doubled.knows ⟨2⟩ = true ∧ doubled.knows ⟨4⟩ = true ∧
      doubled.knows ⟨5⟩ = true := by decide +kernel
  obtain ⟨one, two, four, five⟩ := known
  obtain ⟨greatest, comm, -⟩ :=
    doubled_reachable.glb?_exists_iff_greatest doubled_shallow four five
  obtain ⟨none_greatest, -, checked⟩ :=
    doubled_reachable.glb?_exists_iff_greatest doubled_shallow one two
  have answered : doubled.glb? ⟨4⟩ ⟨5⟩ = some ⟨6⟩ := by decide +kernel
  have unanswered : doubled.glb? ⟨1⟩ ⟨2⟩ = none := by decide +kernel
  refine ⟨⟨doubled_reachable, doubled_shallow⟩, ⟨one, two, four, five⟩,
    (greatest _).mp answered, comm.trans answered, checked.trans unanswered, ?_, ?_⟩
  · decide +kernel
  · rintro ⟨g, hg⟩
    rw [(none_greatest g).mpr hg] at unanswered
    cases unanswered

end Hierarchy

end ObjectInit
