import ObjectInit.Proofs.Hierarchy.Order
import ObjectInit.Proofs.Qualifier.Oracle

/-! # Which bounds of frames there are

The minimal common ancestors leave no choice exactly when there is a least one. Where there are
several, the bound is still the lowest class above both frames, since interfaces are only below
interfaces and the root.
-/

namespace ObjectInit.Hierarchy

variable {h : Hierarchy}

/-! ## The foremost of a list -/

/-- The frames of a list that no other frame of the list comes before. -/
def foremost (before : Frame → Frame → Bool) (fs : List Frame) : List Frame :=
  fs.filter fun c => !fs.any fun d => d ≠ c && before d c

theorem mostSpecific_eq_foremost (fs : List Frame) :
    h.mostSpecific fs = foremost h.isSubtype fs := h.mostSpecific_eq fs

theorem mostGeneral_eq_foremost (fs : List Frame) :
    h.mostGeneral fs = foremost (fun d c => h.isSubtype c d) fs := h.mostGeneral_eq fs

/-- A preorder on a list in which whatever comes before another frame ranks lower. -/
structure Ranked (rank : Frame → Nat) (before : Frame → Frame → Bool) (fs : List Frame) :
    Prop where
  refl {f : Frame} : f ∈ fs → before f f = true
  trans {f g k : Frame} : before f g = true → before g k = true → before f k = true
  lower {f g : Frame} : f ∈ fs → g ∈ fs → before f g = true → f = g ∨ rank f < rank g

section Foremost

variable {rank : Frame → Nat} {before : Frame → Frame → Bool} {fs : List Frame}

theorem mem_foremost {c : Frame} :
    c ∈ foremost before fs ↔ c ∈ fs ∧ ∀ d ∈ fs, before d c = true → d = c := by
  unfold foremost
  rw [List.mem_filter, Bool.not_eq_true', List.any_eq_false]
  refine and_congr_right fun _ => forall_congr' fun d => imp_congr_right fun _ => ?_
  rw [Bool.and_eq_true, decide_eq_true_eq, not_and', Decidable.not_not]

theorem foremost_congr {before' : Frame → Frame → Bool}
    (same : ∀ d ∈ fs, ∀ c ∈ fs, before' d c = before d c) :
    foremost before' fs = foremost before fs := by
  refine List.filter_congr fun c hc => ?_
  rw [Bool.eq_iff_iff, Bool.not_eq_true', Bool.not_eq_true', List.any_eq_false, List.any_eq_false]
  refine forall₂_congr fun d hd => ?_
  rw [same d hd c hc]

theorem nodup_foremost (nodup : fs.Nodup) : (foremost before fs).Nodup := nodup.filter _

theorem Ranked.exists_foremost (ranked : Ranked rank before fs) {f : Frame} (hf : f ∈ fs) :
    ∃ m ∈ foremost before fs, before m f = true := by
  -- Whatever comes before a frame ranks lower, so going on to it ends at a foremost one.
  induction hrank : rank f using Nat.strongRecOn generalizing f with
  | ind n ih =>
      by_cases hmin : ∀ d ∈ fs, before d f = true → d = f
      · exact ⟨f, mem_foremost.mpr ⟨hf, hmin⟩, ranked.refl hf⟩
      · obtain ⟨d, hd⟩ := Classical.not_forall.mp hmin
        obtain ⟨hd, hother⟩ := Classical.not_imp.mp hd
        obtain ⟨hdf, hne⟩ := Classical.not_imp.mp hother
        have hlt := (ranked.lower hd hf hdf).resolve_left hne
        obtain ⟨m, hm, hmd⟩ := ih (rank d) (hrank ▸ hlt) hd rfl
        exact ⟨m, hm, ranked.trans hmd hdf⟩

theorem sole?_eq_some_iff (nodup : fs.Nodup) {c : Frame} :
    sole? fs = some c ↔ c ∈ fs ∧ ∀ d ∈ fs, d = c := by
  match fs, nodup with
  | [], _ => simp [sole?]
  | [f], _ => simp [sole?, eq_comm]
  | f :: g :: rest, nodup =>
      have hfg : f ≠ g := fun same => by simp [same] at nodup
      simp only [sole?, reduceCtorEq, false_iff]
      intro ⟨_, hall⟩
      exact hfg ((hall f (by simp)).trans (hall g (by simp)).symm)

theorem mem_of_sole? {c : Frame} (hc : sole? fs = some c) : c ∈ fs := by
  match fs with
  | [] => cases hc
  | [f] => exact List.mem_singleton.mpr (Option.some.inj hc).symm
  | f :: g :: rest => cases hc

/-- A frame is the only foremost one if and only if it comes before the whole list. -/
theorem Ranked.sole?_foremost_eq_some_iff (ranked : Ranked rank before fs) (nodup : fs.Nodup)
    {c : Frame} :
    sole? (foremost before fs) = some c ↔ c ∈ fs ∧ ∀ d ∈ fs, before c d = true := by
  rw [sole?_eq_some_iff (nodup_foremost nodup)]
  constructor
  · intro ⟨hc, hsole⟩
    refine ⟨(mem_foremost.mp hc).1, fun d hd => ?_⟩
    obtain ⟨m, hm, hmd⟩ := ranked.exists_foremost hd
    rw [← hsole m hm]
    exact hmd
  · intro ⟨hc, hfirst⟩
    have unique : ∀ d ∈ fs, before d c = true → d = c := by
      intro d hd hdc
      obtain same | hlt := ranked.lower hd hc hdc
      · exact same
      · obtain same | hgt := ranked.lower hc hd (hfirst d hd)
        · exact same.symm
        · exact absurd hlt (Nat.lt_asymm hgt)
    refine ⟨mem_foremost.mpr ⟨hc, unique⟩, fun d hd => ?_⟩
    obtain ⟨hd, hmin⟩ := mem_foremost.mp hd
    exact (hmin c hc (hfirst d hd)).symm

end Foremost

/-! ## Common ancestors and descendants -/

theorem mem_frames {f : Frame} : f ∈ h.frames ↔ h.knows f = true := by
  rw [knows_iff, frames, List.mem_map]
  constructor
  · intro ⟨n, hn, hf⟩
    rw [← hf]
    exact List.mem_range.mp hn
  · intro hf
    exact ⟨f.index, List.mem_range.mpr hf, rfl⟩

theorem nodup_frames : h.frames.Nodup :=
  List.Pairwise.map Frame.mk (fun _ _ different same => different (congrArg Frame.index same))
    List.nodup_range

theorem contains_lineage_iff {f g : Frame} (hf : h.knows f = true) (hg : h.knows g = true) :
    (h.lineage f).contains g = true ↔ h.isSubtype f g = true := by
  rw [contains_lineage hf, isSubtype_iff]
  simp only [hf, hg, true_and]

theorem mem_commonAncestors {a b c : Frame} (ha : h.knows a = true) (hb : h.knows b = true) :
    c ∈ h.commonAncestors a b ↔ h.isSubtype a c = true ∧ h.isSubtype b c = true := by
  unfold commonAncestors ancestors
  rw [if_pos hb, if_pos ha, List.mem_filter, List.mem_filter, mem_frames]
  constructor
  · intro ⟨⟨hc, hac⟩, hbc⟩
    exact ⟨(contains_lineage_iff ha hc).mp hac, (contains_lineage_iff hb hc).mp hbc⟩
  · intro ⟨hac, hbc⟩
    have hc := (knows_of_isSubtype hac).2
    exact ⟨⟨hc, (contains_lineage_iff ha hc).mpr hac⟩, (contains_lineage_iff hb hc).mpr hbc⟩

theorem nodup_commonAncestors {a b : Frame} (ha : h.knows a = true) (hb : h.knows b = true) :
    (h.commonAncestors a b).Nodup := by
  unfold commonAncestors ancestors
  rw [if_pos hb, if_pos ha]
  exact (nodup_frames.filter _).filter _

theorem nodup_commonDescendants {a b : Frame} : (h.commonDescendants a b).Nodup :=
  nodup_frames.filter _

theorem mem_commonDescendants {a b c : Frame} :
    c ∈ h.commonDescendants a b ↔ h.isSubtype c a = true ∧ h.isSubtype c b = true := by
  rw [commonDescendants_eq, List.mem_filter, mem_frames, Bool.and_eq_true]
  constructor
  · exact And.right
  · intro hc
    exact ⟨(knows_of_isSubtype hc.1).1, hc⟩

theorem ParentsFirst.eq_or_lt_of_isSubtype (hh : h.ParentsFirst) {a b : Frame}
    (hab : h.isSubtype a b = true) : a = b ∨ b.index < a.index := by
  obtain hlt | heq := Nat.lt_or_eq_of_le (hh.index_le_of_isSubtype hab)
  · exact .inr hlt
  · exact .inl (congrArg Frame.mk heq.symm)

theorem frameLe_eq_isSubtype {a b : Frame} (ha : h.knows a = true) :
    h.oracle.frameLe a b = h.isSubtype a b := by
  unfold TypeOracle.frameLe
  by_cases same : a = b
  · subst same
    rw [isSubtype_refl ha, decide_eq_true rfl, Bool.true_or]
  · rw [decide_eq_false same, Bool.false_or]
    rfl

def lowestAncestors (h : Hierarchy) (a b : Frame) : List Frame :=
  h.mostSpecific (h.commonAncestors a b)

def lowestClasses (h : Hierarchy) (a b : Frame) : List Frame :=
  (h.lowestAncestors a b).filter fun f => !h.isInterface f

def highestDescendants (h : Hierarchy) (a b : Frame) : List Frame :=
  h.mostGeneral (h.commonDescendants a b)

theorem lub?_eq_lowest (h : Hierarchy) (a b : Frame) :
    h.lub? a b = if h.isSubtype a b then some b
      else if h.isSubtype b a then some a
      else (sole? (h.lowestAncestors a b)).or (sole? (h.lowestClasses a b)) := rfl

theorem mem_lowestAncestors {a b c : Frame} (ha : h.knows a = true) (hb : h.knows b = true) :
    c ∈ h.lowestAncestors a b ↔ (h.isSubtype a c = true ∧ h.isSubtype b c = true) ∧
      ∀ d, h.isSubtype a d = true → h.isSubtype b d = true → h.isSubtype d c = true → d = c := by
  rw [lowestAncestors, mostSpecific_eq_foremost, mem_foremost]
  simp only [mem_commonAncestors ha hb, and_imp]

theorem nodup_lowestAncestors {a b : Frame} (ha : h.knows a = true) (hb : h.knows b = true) :
    (h.lowestAncestors a b).Nodup := by
  rw [lowestAncestors, mostSpecific_eq_foremost]
  exact nodup_foremost (nodup_commonAncestors ha hb)

theorem mem_lowestClasses {a b c : Frame} :
    c ∈ h.lowestClasses a b ↔ c ∈ h.lowestAncestors a b ∧ h.isInterface c = false := by
  rw [lowestClasses, List.mem_filter, Bool.not_eq_true']

theorem mem_highestDescendants {a b c : Frame} :
    c ∈ h.highestDescendants a b ↔ (h.isSubtype c a = true ∧ h.isSubtype c b = true) ∧
      ∀ d, h.isSubtype d a = true → h.isSubtype d b = true → h.isSubtype c d = true → d = c := by
  rw [highestDescendants, mostGeneral_eq_foremost, mem_foremost]
  simp only [mem_commonDescendants, and_imp]

/-! ## The bounds that are taken -/

section Bounds

variable {a b c : Frame}

theorem isLeastAbove_of_isSubtype (hab : h.isSubtype a b = true) :
    h.oracle.IsLeastAbove a b b :=
  ⟨hab, isSubtype_refl (knows_of_isSubtype hab).2, fun _ _ hbd => hbd⟩

theorem isGreatestBelow_of_isSubtype (hab : h.isSubtype a b = true) :
    h.oracle.IsGreatestBelow a b a :=
  ⟨isSubtype_refl (knows_of_isSubtype hab).1, hab, fun _ hda _ => hda⟩

theorem frameLub_of_isSubtype (hab : h.isSubtype a b = true) : h.oracle.frameLub a b = b := by
  unfold TypeOracle.frameLub
  rw [frameLe_eq_isSubtype (knows_of_isSubtype hab).1, if_pos hab]

theorem frameLub_of_isSupertype (hab : h.isSubtype a b = false) (hba : h.isSubtype b a = true) :
    h.oracle.frameLub a b = a := by
  obtain ⟨hb, ha⟩ := knows_of_isSubtype hba
  unfold TypeOracle.frameLub
  rw [frameLe_eq_isSubtype ha, frameLe_eq_isSubtype hb, if_neg (Bool.eq_false_iff.mp hab),
    if_pos hba]

theorem frameGlb?_of_isSubtype (hab : h.isSubtype a b = true) :
    h.oracle.frameGlb? a b = some a := by
  unfold TypeOracle.frameGlb?
  rw [frameLe_eq_isSubtype (knows_of_isSubtype hab).1, if_pos hab]

theorem frameGlb?_of_isSupertype (hab : h.isSubtype a b = false)
    (hba : h.isSubtype b a = true) : h.oracle.frameGlb? a b = some b := by
  obtain ⟨hb, ha⟩ := knows_of_isSubtype hba
  unfold TypeOracle.frameGlb?
  rw [frameLe_eq_isSubtype ha, frameLe_eq_isSubtype hb, if_neg (Bool.eq_false_iff.mp hab),
    if_pos hba]

theorem lub?_of_apart (apart : h.oracle.Apart a b) :
    h.lub? a b = (sole? (h.lowestAncestors a b)).or (sole? (h.lowestClasses a b)) := by
  have hab : ¬h.isSubtype a b = true := Bool.eq_false_iff.mp apart.1
  have hba : ¬h.isSubtype b a = true := Bool.eq_false_iff.mp apart.2
  rw [lub?_eq_lowest, if_neg hab, if_neg hba]

theorem glb?_of_apart (apart : h.oracle.Apart a b) :
    h.glb? a b = sole? (h.highestDescendants a b) := by
  have hab : ¬h.isSubtype a b = true := Bool.eq_false_iff.mp apart.1
  have hba : ¬h.isSubtype b a = true := Bool.eq_false_iff.mp apart.2
  unfold glb?
  rw [if_neg hab, if_neg hba]
  rfl

/-- The upper bound of frames that are not ordered is the only lowest common ancestor, else the
only class among them, else the root. -/
theorem frameLub_of_apart (ha : h.knows a = true) (hb : h.knows b = true)
    (apart : h.oracle.Apart a b) :
    h.oracle.frameLub a b =
      ((sole? (h.lowestAncestors a b)).or (sole? (h.lowestClasses a b))).getD root := by
  have hab : ¬h.isSubtype a b = true := Bool.eq_false_iff.mp apart.1
  have hba : ¬h.isSubtype b a = true := Bool.eq_false_iff.mp apart.2
  have hlub : h.oracle.lub? a b =
      (sole? (h.lowestAncestors a b)).or (sole? (h.lowestClasses a b)) := lub?_of_apart apart
  unfold TypeOracle.frameLub
  rw [frameLe_eq_isSubtype ha, frameLe_eq_isSubtype hb, if_neg hab, if_neg hba, hlub]
  cases hc : (sole? (h.lowestAncestors a b)).or (sole? (h.lowestClasses a b)) with
  | none => rfl
  | some c =>
      have hlowest : c ∈ h.lowestAncestors a b := by
        obtain hsole | ⟨-, hsole⟩ := Option.or_eq_some_iff.mp hc
        · exact mem_of_sole? hsole
        · exact (mem_lowestClasses.mp (mem_of_sole? hsole)).1
      obtain ⟨⟨hac, hbc⟩, -⟩ := (mem_lowestAncestors ha hb).mp hlowest
      simp [frameLe_eq_isSubtype ha, frameLe_eq_isSubtype hb, hac, hbc]

theorem frameGlb?_of_apart (ha : h.knows a = true) (hb : h.knows b = true)
    (apart : h.oracle.Apart a b) :
    h.oracle.frameGlb? a b = sole? (h.highestDescendants a b) := by
  have hab : ¬h.isSubtype a b = true := Bool.eq_false_iff.mp apart.1
  have hba : ¬h.isSubtype b a = true := Bool.eq_false_iff.mp apart.2
  have hglb : h.oracle.glb? a b = sole? (h.highestDescendants a b) := glb?_of_apart apart
  unfold TypeOracle.frameGlb?
  rw [frameLe_eq_isSubtype ha, frameLe_eq_isSubtype hb, if_neg hab, if_neg hba, hglb]
  cases hc : sole? (h.highestDescendants a b) with
  | none => rfl
  | some c =>
      obtain ⟨⟨hca, hcb⟩, -⟩ := mem_highestDescendants.mp (mem_of_sole? hc)
      simp [frameLe_eq_isSubtype (knows_of_isSubtype hca).1, hca, hcb]

variable (hr : h.Reachable) (hs : h.Shallow)

include hr

theorem Reachable.isLeastAbove_unique {d : Frame} (hc : h.oracle.IsLeastAbove a b c)
    (hd : h.oracle.IsLeastAbove a b d) : c = d :=
  hr.parentsFirst.isSubtype_antisymm (hc.2.2 d hd.1 hd.2.1) (hd.2.2 c hc.1 hc.2.1)

theorem Reachable.isGreatestBelow_unique {d : Frame} (hc : h.oracle.IsGreatestBelow a b c)
    (hd : h.oracle.IsGreatestBelow a b d) : c = d :=
  hr.parentsFirst.isSubtype_antisymm (hd.2.2 c hc.1 hc.2.1) (hc.2.2 d hd.1 hd.2.1)

theorem Reachable.le_frameLub (ha : h.knows a = true) (hb : h.knows b = true) :
    h.isSubtype a (h.oracle.frameLub a b) = true ∧
      h.isSubtype b (h.oracle.frameLub a b) = true := by
  rw [← frameLe_eq_isSubtype ha, ← frameLe_eq_isSubtype hb]
  apply TypeOracle.le_frameLub
  · rw [frameLe_eq_isSubtype ha]
    exact hr.isSubtype_root ha
  · rw [frameLe_eq_isSubtype hb]
    exact hr.isSubtype_root hb

include hs

/-! ### Least upper bounds -/

theorem Reachable.ranked_commonAncestors (ha : h.knows a = true) (hb : h.knows b = true) :
    Ranked (fun f => h.nodes.size - f.index) h.isSubtype (h.commonAncestors a b) := by
  have known : ∀ f ∈ h.commonAncestors a b, h.knows f = true := fun f hf =>
    (knows_of_isSubtype ((mem_commonAncestors ha hb).mp hf).1).2
  refine ⟨fun hf => isSubtype_refl (known _ hf), hr.parentsFirst.isSubtype_trans hs, ?_⟩
  intro f g hf _ hfg
  have hlt := knows_iff.mp (known f hf)
  refine (hr.parentsFirst.eq_or_lt_of_isSubtype hfg).imp_right fun hlater => ?_
  omega

theorem Reachable.sole?_lowestAncestors_eq_some_iff (ha : h.knows a = true)
    (hb : h.knows b = true) :
    sole? (h.lowestAncestors a b) = some c ↔ h.oracle.IsLeastAbove a b c := by
  rw [lowestAncestors, mostSpecific_eq_foremost,
    (hr.ranked_commonAncestors hs ha hb).sole?_foremost_eq_some_iff (nodup_commonAncestors ha hb)]
  simp only [mem_commonAncestors ha hb, and_imp, and_assoc]
  rfl

theorem Reachable.sole?_lowestClasses (ha : h.knows a = true) (hb : h.knows b = true)
    (hc : c ∈ h.lowestClasses a b) : sole? (h.lowestClasses a b) = some c := by
  have nodup : (h.lowestClasses a b).Nodup := (nodup_lowestAncestors ha hb).filter _
  refine (sole?_eq_some_iff nodup).mpr ⟨hc, fun d hd => ?_⟩
  obtain ⟨hc, class_c⟩ := mem_lowestClasses.mp hc
  obtain ⟨hd, class_d⟩ := mem_lowestClasses.mp hd
  obtain ⟨⟨hac, hbc⟩, cmin⟩ := (mem_lowestAncestors ha hb).mp hc
  obtain ⟨⟨had, hbd⟩, dmin⟩ := (mem_lowestAncestors ha hb).mp hd
  obtain hcd | hdc := hr.isSubtype_total hs hac had class_c class_d
  · exact (dmin c hac hbc hcd).symm
  · exact cmin d had hbd hdc

theorem Reachable.frameLub_eq_of_isLeastAbove (hc : h.oracle.IsLeastAbove a b c) :
    h.oracle.frameLub a b = c := by
  have ha := (knows_of_isSubtype hc.1).1
  have hb := (knows_of_isSubtype hc.2.1).1
  cases hab : h.isSubtype a b with
  | true =>
      rw [frameLub_of_isSubtype hab]
      exact hr.isLeastAbove_unique (isLeastAbove_of_isSubtype hab) hc
  | false =>
      cases hba : h.isSubtype b a with
      | true =>
          rw [frameLub_of_isSupertype hab hba]
          exact hr.isLeastAbove_unique (isLeastAbove_of_isSubtype hba).symm hc
      | false =>
          rw [frameLub_of_apart ha hb ⟨hab, hba⟩,
            (hr.sole?_lowestAncestors_eq_some_iff hs ha hb).mpr hc]
          rfl

/-- Where there is no least frame above two, their bound is the lowest class above both. -/
theorem Reachable.frameLub_of_no_least (ha : h.knows a = true) (hb : h.knows b = true)
    (no_least : ¬∃ c, h.oracle.IsLeastAbove a b c) :
    h.isInterface (h.oracle.frameLub a b) = false ∧
      ∀ m, h.isInterface m = false → h.isSubtype a m = true → h.isSubtype b m = true →
        h.isSubtype (h.oracle.frameLub a b) m = true := by
  have hab : h.isSubtype a b = false :=
    Bool.eq_false_iff.mpr fun hab => no_least ⟨b, isLeastAbove_of_isSubtype hab⟩
  have hba : h.isSubtype b a = false :=
    Bool.eq_false_iff.mpr fun hba => no_least ⟨a, (isLeastAbove_of_isSubtype hba).symm⟩
  have hsole : sole? (h.lowestAncestors a b) = none :=
    Option.eq_none_iff_forall_ne_some.mpr fun c hc =>
      no_least ⟨c, (hr.sole?_lowestAncestors_eq_some_iff hs ha hb).mp hc⟩
  have hbound : h.oracle.frameLub a b = (sole? (h.lowestClasses a b)).getD root := by
    rw [frameLub_of_apart ha hb ⟨hab, hba⟩, hsole, Option.none_or]
  constructor
  · rw [hbound]
    cases hc : sole? (h.lowestClasses a b) with
    | none => exact hr.isInterface_root
    | some c => exact (mem_lowestClasses.mp (mem_of_sole? hc)).2
  · intro m class_m ham hbm
    have hm : m ∈ h.commonAncestors a b := (mem_commonAncestors ha hb).mpr ⟨ham, hbm⟩
    obtain ⟨c, hc, hcm⟩ := (hr.ranked_commonAncestors hs ha hb).exists_foremost hm
    rw [← mostSpecific_eq_foremost] at hc
    -- Below a class there is a lowest class, or the lowest is an interface and the class the root.
    cases class_c : h.isInterface c with
    | true =>
        rw [hr.eq_root_of_isInterface hcm class_c class_m]
        exact hr.isSubtype_root (knows_of_isSubtype (hr.le_frameLub ha hb).1).2
    | false =>
        rw [hbound, hr.sole?_lowestClasses hs ha hb (mem_lowestClasses.mpr ⟨hc, class_c⟩)]
        exact hcm

/-- The bound of two frames is below a frame above both if and only if there is a least one, or
the frame is above a class that is above both. -/
theorem Reachable.frameLub_isSubtype_iff (hac : h.isSubtype a c = true)
    (hbc : h.isSubtype b c = true) :
    h.isSubtype (h.oracle.frameLub a b) c = true ↔ (∃ m, h.oracle.IsLeastAbove a b m) ∨
      ∃ m, h.isInterface m = false ∧ h.isSubtype a m = true ∧ h.isSubtype b m = true ∧
        h.isSubtype m c = true := by
  have ha := (knows_of_isSubtype hac).1
  have hb := (knows_of_isSubtype hbc).1
  by_cases hleast : ∃ m, h.oracle.IsLeastAbove a b m
  · refine ⟨fun _ => .inl hleast, fun _ => ?_⟩
    obtain ⟨m, hm⟩ := hleast
    rw [hr.frameLub_eq_of_isLeastAbove hs hm]
    exact hm.2.2 c hac hbc
  · obtain ⟨hclass, hlowest⟩ := hr.frameLub_of_no_least hs ha hb hleast
    constructor
    · intro hbound
      obtain ⟨hal, hbl⟩ := hr.le_frameLub ha hb
      exact .inr ⟨_, hclass, hal, hbl, hbound⟩
    · intro habove
      obtain ⟨m, class_m, ham, hbm, hmc⟩ := habove.resolve_left hleast
      exact hr.parentsFirst.isSubtype_trans hs (hlowest m class_m ham hbm) hmc

/-! ### Greatest lower bounds -/

theorem Reachable.sole?_highestDescendants_eq_some_iff :
    sole? (h.highestDescendants a b) = some c ↔ h.oracle.IsGreatestBelow a b c := by
  have ranked : Ranked Frame.index (fun f g => h.isSubtype g f) (h.commonDescendants a b) := by
    refine ⟨fun hf => ?_, fun hgf hkg => hr.parentsFirst.isSubtype_trans hs hkg hgf, ?_⟩
    · exact isSubtype_refl (knows_of_isSubtype (mem_commonDescendants.mp hf).1).1
    · intro f g _ _ hgf
      exact (hr.parentsFirst.eq_or_lt_of_isSubtype hgf).imp_left Eq.symm
  rw [highestDescendants, mostGeneral_eq_foremost,
    ranked.sole?_foremost_eq_some_iff nodup_commonDescendants]
  simp only [mem_commonDescendants, and_imp, and_assoc]
  rfl

theorem Reachable.frameGlb?_eq_some_iff (ha : h.knows a = true) (hb : h.knows b = true) :
    h.oracle.frameGlb? a b = some c ↔ h.oracle.IsGreatestBelow a b c := by
  have taken : ∀ {m}, h.oracle.IsGreatestBelow a b m →
      (some m = some c ↔ h.oracle.IsGreatestBelow a b c) := by
    intro m hm
    rw [Option.some_inj]
    constructor
    · intro same
      rw [← same]
      exact hm
    · exact hr.isGreatestBelow_unique hm
  cases hab : h.isSubtype a b with
  | true =>
      rw [frameGlb?_of_isSubtype hab]
      exact taken (isGreatestBelow_of_isSubtype hab)
  | false =>
      cases hba : h.isSubtype b a with
      | true =>
          rw [frameGlb?_of_isSupertype hab hba]
          exact taken (isGreatestBelow_of_isSubtype hba).symm
      | false =>
          rw [frameGlb?_of_apart ha hb ⟨hab, hba⟩]
          exact hr.sole?_highestDescendants_eq_some_iff hs

end Bounds

end ObjectInit.Hierarchy
