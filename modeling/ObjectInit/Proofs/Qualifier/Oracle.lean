import ObjectInit.TypeOracle

/-! # Lawful oracles

An oracle is lawful if it answers for a partial order below the root and for its least and greatest
bounds. The bounds that the qualifiers use are upper and lower bounds over any oracle.
-/

namespace ObjectInit.TypeOracle

def Apart (o : TypeOracle) (a b : Frame) : Prop :=
  o.isSubtype a b = false ∧ o.isSubtype b a = false

def IsLeastAbove (o : TypeOracle) (a b c : Frame) : Prop :=
  o.isSubtype a c = true ∧ o.isSubtype b c = true ∧
    ∀ d, o.isSubtype a d = true → o.isSubtype b d = true → o.isSubtype c d = true

def IsGreatestBelow (o : TypeOracle) (a b c : Frame) : Prop :=
  o.isSubtype c a = true ∧ o.isSubtype c b = true ∧
    ∀ d, o.isSubtype d a = true → o.isSubtype d b = true → o.isSubtype d c = true

/-- An oracle that answers for an ordered set of frames with a greatest one, in which two frames
have a least frame above them. -/
structure HasJoins (o : TypeOracle) : Prop where
  refl (a : Frame) : o.isSubtype a a = true
  antisymm {a b : Frame} : o.isSubtype a b = true → o.isSubtype b a = true → a = b
  trans {a b c : Frame} :
    o.isSubtype a b = true → o.isSubtype b c = true → o.isSubtype a c = true
  le_root (a : Frame) : o.isSubtype a o.root = true
  lub {a b : Frame} : o.Apart a b → ∃ c, o.lub? a b = some c ∧ o.IsLeastAbove a b c

/-- An oracle that answers for an ordered set of frames with a greatest one, in which two frames
have a least frame above them, and a greatest one below them if there is any. -/
structure Lawful (o : TypeOracle) : Prop where
  refl (a : Frame) : o.isSubtype a a = true
  antisymm {a b : Frame} : o.isSubtype a b = true → o.isSubtype b a = true → a = b
  trans {a b c : Frame} :
    o.isSubtype a b = true → o.isSubtype b c = true → o.isSubtype a c = true
  le_root (a : Frame) : o.isSubtype a o.root = true
  lub {a b : Frame} : o.Apart a b → ∃ c, o.lub? a b = some c ∧ o.IsLeastAbove a b c
  glb {a b : Frame} : o.Apart a b →
    (∃ c, o.isSubtype c a = true ∧ o.isSubtype c b = true) →
      ∃ c, o.glb? a b = some c ∧ o.IsGreatestBelow a b c
  glb_none {a b : Frame} : o.Apart a b →
    (¬∃ c, o.isSubtype c a = true ∧ o.isSubtype c b = true) → o.glb? a b = none

variable {o : TypeOracle}

/-! ## Any oracle -/

theorem IsLeastAbove.symm {a b c : Frame} (hc : o.IsLeastAbove a b c) : o.IsLeastAbove b a c :=
  ⟨hc.2.1, hc.1, fun d hbd had => hc.2.2 d had hbd⟩

theorem IsGreatestBelow.symm {a b c : Frame} (hc : o.IsGreatestBelow a b c) :
    o.IsGreatestBelow b a c :=
  ⟨hc.2.1, hc.1, fun d hdb hda => hc.2.2 d hda hdb⟩

theorem frameLe_iff {a b : Frame} :
    o.frameLe a b = true ↔ a = b ∨ o.isSubtype a b = true := by
  simp [frameLe]

@[simp] theorem frameLe_refl (a : Frame) : o.frameLe a a = true := frameLe_iff.mpr (.inl rfl)

theorem le_frameLub {a b : Frame} (ha : o.frameLe a o.root = true)
    (hb : o.frameLe b o.root = true) :
    o.frameLe a (o.frameLub a b) = true ∧ o.frameLe b (o.frameLub a b) = true := by
  unfold frameLub
  split
  · rename_i hab
    exact ⟨hab, frameLe_refl b⟩
  · split
    · rename_i hba
      exact ⟨frameLe_refl a, hba⟩
    · split
      · split
        · rename_i hc
          exact Bool.and_eq_true_iff.mp hc
        · exact ⟨ha, hb⟩
      · exact ⟨ha, hb⟩

theorem frameGlb?_le {a b c : Frame} (h : o.frameGlb? a b = some c) :
    o.frameLe c a = true ∧ o.frameLe c b = true := by
  unfold frameGlb? at h
  split at h
  · rename_i hab
    cases h
    exact ⟨frameLe_refl a, hab⟩
  · split at h
    · rename_i hba
      cases h
      exact ⟨hba, frameLe_refl b⟩
    · split at h
      · split at h
        · rename_i hc
          cases h
          exact Bool.and_eq_true_iff.mp hc
        · cases h
      · cases h

/-- Answers that break every law but one: no frame other than the root is below itself, the frames 1
and 3 are below each other, 1 is not below 2 although 3 is, and any two frames are said to have the
same two bounds. The one law kept is that every frame is below the root. -/
def liar : TypeOracle where
  isSubtype a b :=
    b.index = 0 || (a.index = 1 && b.index = 3) || (a.index = 3 && (b.index = 1 || b.index = 2))
  directSupertype? f := some f
  lub? _ _ := some ⟨7⟩
  glb? _ _ := some ⟨3⟩
  root := ⟨0⟩

theorem liar_isSubtype_root (f : Frame) : liar.isSubtype f liar.root = true := rfl

def scattered : TypeOracle where
  isSubtype _ _ := false
  directSupertype? _ := none
  lub? _ _ := none
  glb? _ _ := none
  root := ⟨0⟩

theorem frameLe_trans {a b c : Frame}
    (trans : o.isSubtype a b = true → o.isSubtype b c = true → o.isSubtype a c = true)
    (hab : o.frameLe a b = true) (hbc : o.frameLe b c = true) : o.frameLe a c = true := by
  rcases frameLe_iff.mp hab with rfl | hab
  · exact hbc
  · rcases frameLe_iff.mp hbc with rfl | hbc
    · exact frameLe_iff.mpr (.inr hab)
    · exact frameLe_iff.mpr (.inr (trans hab hbc))

/-! ## Oracles with joins -/

namespace HasJoins

theorem frameLe_eq (h : o.HasJoins) (a b : Frame) : o.frameLe a b = o.isSubtype a b := by
  by_cases hab : a = b
  · subst hab
    rw [frameLe_refl, h.refl a]
  · simp [frameLe, hab]

theorem frameLe_root (h : o.HasJoins) (a : Frame) : o.frameLe a o.root = true := by
  rw [h.frameLe_eq]
  exact h.le_root a

theorem frameLe_antisymm (h : o.HasJoins) {a b : Frame} (hab : o.frameLe a b = true)
    (hba : o.frameLe b a = true) : a = b := by
  rw [h.frameLe_eq] at hab hba
  exact h.antisymm hab hba

theorem apart_of_not_frameLe (h : o.HasJoins) {a b : Frame} (hab : ¬o.frameLe a b = true)
    (hba : ¬o.frameLe b a = true) : o.Apart a b := by
  rw [h.frameLe_eq, Bool.not_eq_true] at hab hba
  exact ⟨hab, hba⟩

theorem frameLub_le (h : o.HasJoins) {a b d : Frame} (ha : o.frameLe a d = true)
    (hb : o.frameLe b d = true) : o.frameLe (o.frameLub a b) d = true := by
  unfold frameLub
  split
  · exact hb
  · rename_i hab
    split
    · exact ha
    · rename_i hba
      obtain ⟨c, hc, hac, hbc, hleast⟩ := h.lub (h.apart_of_not_frameLe hab hba)
      rw [h.frameLe_eq] at ha hb
      simp only [hc, h.frameLe_eq, hac, hbc, Bool.and_true, if_true]
      exact hleast d ha hb

end HasJoins

/-! ## Lawful oracles -/

namespace Lawful

theorem hasJoins (h : o.Lawful) : o.HasJoins := ⟨h.refl, h.antisymm, h.trans, h.le_root, h.lub⟩

theorem le_frameGlb? (h : o.Lawful) {a b d : Frame} (ha : o.frameLe d a = true)
    (hb : o.frameLe d b = true) : ∃ c, o.frameGlb? a b = some c ∧ o.frameLe d c = true := by
  unfold frameGlb?
  split
  · exact ⟨a, rfl, ha⟩
  · rename_i hab
    split
    · exact ⟨b, rfl, hb⟩
    · rename_i hba
      have frameLe_eq := h.hasJoins.frameLe_eq
      have apart := h.hasJoins.apart_of_not_frameLe hab hba
      rw [frameLe_eq] at ha hb
      obtain ⟨c, hc, hca, hcb, hgreatest⟩ := h.glb apart ⟨d, ha, hb⟩
      refine ⟨c, ?_, ?_⟩
      · simp only [hc, frameLe_eq, hca, hcb, Bool.and_true, if_true]
      · rw [frameLe_eq]
        exact hgreatest d ha hb

end Lawful

/-- The root, the frames 1 and 2 below it, the frame 3 below both of them, and every other frame
below the root alone. -/
def diamond : TypeOracle where
  isSubtype a b := a = b || b.index = 0 || (a.index = 3 && (b.index = 1 || b.index = 2))
  directSupertype? _ := none
  lub? _ _ := some ⟨0⟩
  glb? a b :=
    if a.index = 1 ∧ b.index = 2 ∨ a.index = 2 ∧ b.index = 1 then some ⟨3⟩ else none
  root := ⟨0⟩

theorem diamond_isSubtype_iff {a b : Frame} :
    diamond.isSubtype a b = true ↔
      a.index = b.index ∨ b.index = 0 ∨ a.index = 3 ∧ (b.index = 1 ∨ b.index = 2) := by
  obtain ⟨a⟩ := a
  obtain ⟨b⟩ := b
  simp [diamond, or_assoc]

theorem diamond_apart_iff {a b : Frame} :
    diamond.Apart a b ↔ ¬diamond.isSubtype a b = true ∧ ¬diamond.isSubtype b a = true := by
  simp only [Apart, Bool.not_eq_true]

theorem diamond_lawful : diamond.Lawful where
  refl a := diamond_isSubtype_iff.mpr (.inl rfl)
  antisymm {a b} hab hba := by
    rw [diamond_isSubtype_iff] at hab hba
    have hindex : a.index = b.index := by omega
    exact congrArg Frame.mk hindex
  trans {a b c} hab hbc := by
    rw [diamond_isSubtype_iff] at hab hbc ⊢
    omega
  le_root a := diamond_isSubtype_iff.mpr (.inr (.inl rfl))
  lub {a b} hapart := by
    rw [diamond_apart_iff] at hapart
    refine ⟨⟨0⟩, rfl, diamond_isSubtype_iff.mpr (.inr (.inl rfl)),
      diamond_isSubtype_iff.mpr (.inr (.inl rfl)), ?_⟩
    intro d had hbd
    simp only [diamond_isSubtype_iff] at hapart had hbd ⊢
    omega
  glb {a b} hapart hcommon := by
    obtain ⟨c, hca, hcb⟩ := hcommon
    rw [diamond_apart_iff] at hapart
    simp only [diamond_isSubtype_iff] at hapart hca hcb
    have hpair : a.index = 1 ∧ b.index = 2 ∨ a.index = 2 ∧ b.index = 1 := by omega
    refine ⟨⟨3⟩, if_pos hpair, ?_⟩
    simp only [IsGreatestBelow, diamond_isSubtype_iff, true_and]
    exact ⟨by omega, by omega, fun d hda hdb => by omega⟩
  glb_none {a b} _ hcommon := by
    apply if_neg
    intro hpair
    refine hcommon ⟨⟨3⟩, ?_⟩
    simp only [diamond_isSubtype_iff, true_and]
    omega

end ObjectInit.TypeOracle
