import ObjectInit.Proofs.Qualifier.Oracle
import ObjectInit.Proofs.Qualifier.System

/-! # The qualifiers are a bounded lattice

Each law of the qualifiers is traced back to the one law of frames that it needs: none for lower
bounds, that the root is above all frames for upper bounds, and that the bounds of frames are the
least and the greatest for theirs to be.
-/

namespace ObjectInit.Qualifier

variable {o : TypeOracle}

/-! ## The order -/

theorem le_refl (o : TypeOracle) (a : Qualifier) : le o a a = true := by
  cases a with
  | bottom => rfl
  | initialized => rfl
  | under f => exact TypeOracle.frameLe_refl f
  | unknown f => exact TypeOracle.frameLe_refl f

theorem bottom_le (o : TypeOracle) (a : Qualifier) : le o bottom a = true := by
  cases a <;> rfl

theorem le_top {a : Qualifier} (ha : ∀ f ∈ a.frame?, o.frameLe f o.root = true) :
    le o a (top o) = true := by
  cases a with
  | bottom => rfl
  | initialized => rfl
  | under f => exact ha f rfl
  | unknown f => exact ha f rfl

theorem le_antisymm {a b : Qualifier}
    (antisymm : ∀ f ∈ a.frame?, ∀ g ∈ b.frame?,
      o.frameLe f g = true → o.frameLe g f = true → f = g)
    (hab : le o a b = true) (hba : le o b a = true) : a = b := by
  cases a <;> cases b <;> simp only [le, reduceCtorEq] at hab hba ⊢
  · rw [antisymm _ rfl _ rfl hab hba]
  · rw [antisymm _ rfl _ rfl hab hba]

theorem le_trans {a b c : Qualifier}
    (trans : ∀ f ∈ a.frame?, ∀ g ∈ b.frame?, ∀ k ∈ c.frame?,
      o.frameLe f g = true → o.frameLe g k = true → o.frameLe f k = true)
    (hab : le o a b = true) (hbc : le o b c = true) : le o a c = true := by
  cases a <;> cases b <;> cases c <;> simp only [le, reduceCtorEq] at hab hbc ⊢
  all_goals exact trans _ rfl _ rfl _ rfl hab hbc

theorem le_trans_of_trans
    (trans : ∀ f g k, o.isSubtype f g = true → o.isSubtype g k = true → o.isSubtype f k = true)
    {a b c : Qualifier} : le o a b = true → le o b c = true → le o a c = true :=
  le_trans fun f _ g _ k _ => TypeOracle.frameLe_trans (trans f g k)

theorem exists_frame_of_le {a b : Qualifier} {f : Frame} (hf : f ∈ a.frame?)
    (hab : le o a b = true) : ∃ g ∈ b.frame?, o.frameLe f g = true := by
  cases a <;> cases hf <;> cases b <;> simp only [le, reduceCtorEq] at hab
  all_goals exact ⟨_, rfl, hab⟩

theorem frameLe_of_le {a b : Qualifier} {f g : Frame} (hf : f ∈ a.frame?) (hg : g ∈ b.frame?)
    (hab : le o a b = true) : o.frameLe f g = true := by
  obtain ⟨k, hk, hfk⟩ := exists_frame_of_le hf hab
  rw [Option.mem_unique hg hk]
  exact hfk

/-! ## Upper bounds -/

theorem lub_of_le {a b : Qualifier} (hab : le o a b = true) : lub o a b = b := if_pos hab

theorem lub_of_ge {a b : Qualifier} (hab : le o a b = false) (hba : le o b a = true) :
    lub o a b = a := by
  unfold lub
  rw [hab, if_neg Bool.false_ne_true, if_pos hba]

theorem lub_self (o : TypeOracle) (a : Qualifier) : lub o a a = a := lub_of_le (le_refl o a)

theorem le_lub {a b : Qualifier} (ha : ∀ f ∈ a.frame?, o.frameLe f o.root = true)
    (hb : ∀ f ∈ b.frame?, o.frameLe f o.root = true) :
    le o a (lub o a b) = true ∧ le o b (lub o a b) = true := by
  unfold lub
  split
  · rename_i hab
    exact ⟨hab, le_refl o b⟩
  · rename_i hab
    split
    · rename_i hba
      exact ⟨le_refl o a, hba⟩
    · rename_i hba
      cases a <;> cases b <;> simp only [le, not_true_eq_false] at hab hba
      case under.under f g => exact TypeOracle.le_frameLub (ha f rfl) (hb g rfl)
      case under.unknown f g => exact TypeOracle.le_frameLub (ha f rfl) (hb g rfl)
      case unknown.under f g => exact TypeOracle.le_frameLub (ha f rfl) (hb g rfl)
      case unknown.unknown f g => exact TypeOracle.le_frameLub (ha f rfl) (hb g rfl)
      case under.initialized f => exact ⟨TypeOracle.frameLe_refl f, rfl⟩
      case initialized.under f => exact ⟨rfl, TypeOracle.frameLe_refl f⟩

theorem lub_le {a b c : Qualifier}
    (least : ∀ f ∈ a.frame?, ∀ g ∈ b.frame?, ∀ k ∈ c.frame?,
      o.frameLe f k = true → o.frameLe g k = true → o.frameLe (o.frameLub f g) k = true)
    (ha : le o a c = true) (hb : le o b c = true) : le o (lub o a b) c = true := by
  unfold lub
  split
  · exact hb
  · rename_i hab
    split
    · exact ha
    · rename_i hba
      cases a <;> cases b <;> simp only [le, not_true_eq_false] at hab hba <;>
        cases c <;> simp only [le, lubApart, reduceCtorEq] at ha hb ⊢
      all_goals first
        | exact ha
        | exact hb
        | exact least _ rfl _ rfl _ rfl ha hb

theorem frame?_lubApart {a b : Qualifier} {f g : Frame} (hf : f ∈ a.frame?)
    (hg : g ∈ b.frame?) : (lubApart o a b).frame? = some (o.frameLub f g) := by
  cases a <;> cases hf <;> cases b <;> cases hg <;> rfl

/-- An upper bound is the least exactly as far as the bound of the frames is. -/
theorem lub_le_iff {a b c : Qualifier} (ha : le o a c = true) (hb : le o b c = true) :
    le o (lub o a b) c = true ↔ ∀ f ∈ a.frame?, ∀ g ∈ b.frame?, ∀ k ∈ c.frame?,
      o.frameLe (o.frameLub f g) k = true := by
  constructor
  · intro hlub f hf g hg k hk
    have hfk := frameLe_of_le hf hk ha
    have hgk := frameLe_of_le hg hk hb
    unfold lub at hlub
    split at hlub
    · rename_i hab
      rw [TypeOracle.frameLub, if_pos (frameLe_of_le hf hg hab)]
      exact hgk
    · split at hlub
      · rename_i hba
        have hgf := frameLe_of_le hg hf hba
        rw [TypeOracle.frameLub, if_pos hgf]
        split
        · exact hgk
        · exact hfk
      · exact frameLe_of_le (frame?_lubApart hf hg) hk hlub
  · intro least
    exact lub_le (fun f hf g hg k hk _ _ => least f hf g hg k hk) ha hb

/-! ## Lower bounds -/

theorem glb_of_le {a b : Qualifier} (hab : le o a b = true) : glb o a b = a := if_pos hab

theorem glb_le (o : TypeOracle) (a b : Qualifier) :
    le o (glb o a b) a = true ∧ le o (glb o a b) b = true := by
  unfold glb
  split
  · rename_i hab
    exact ⟨le_refl o a, hab⟩
  · split
    · rename_i hba
      exact ⟨hba, le_refl o b⟩
    · rename_i hab hba
      -- That neither is below the other plays no part: the bound is below both in any case.
      clear hab hba
      cases a <;> cases b <;> simp only [glbApart, bottom_le, and_self]
      all_goals
        rename_i f g
        cases hfg : o.frameGlb? f g with
        | none => exact ⟨rfl, rfl⟩
        | some k => exact TypeOracle.frameGlb?_le hfg

theorem le_glb {a b c : Qualifier}
    (greatest : ∀ f ∈ a.frame?, ∀ g ∈ b.frame?, ∀ k ∈ c.frame?,
      o.frameLe k f = true → o.frameLe k g = true →
        ∃ m, o.frameGlb? f g = some m ∧ o.frameLe k m = true)
    (ha : le o c a = true) (hb : le o c b = true) : le o c (glb o a b) = true := by
  unfold glb
  split
  · exact ha
  · rename_i hab
    split
    · exact hb
    · rename_i hba
      cases c with
      | bottom => exact bottom_le o _
      | initialized =>
          cases a <;> cases b <;> simp only [le, not_true_eq_false, reduceCtorEq] at ha hb hab hba
          rename_i f g
          simp only [glbApart]
          cases o.frameGlb? f g <;> rfl
      | under k =>
          cases a <;> cases b <;> simp only [le, reduceCtorEq] at ha hb hab hba
          all_goals
            obtain ⟨m, hm, hkm⟩ := greatest _ rfl _ rfl _ rfl ha hb
            simp only [glbApart, hm, Option.map_some, Option.getD_some]
            exact hkm
      | unknown k =>
          cases a <;> cases b <;> simp only [le, reduceCtorEq] at ha hb
          obtain ⟨m, hm, hkm⟩ := greatest _ rfl _ rfl _ rfl ha hb
          simp only [glbApart, hm, Option.map_some, Option.getD_some]
          exact hkm

theorem frame?_glbApart {a b : Qualifier} {f g : Frame} (hf : f ∈ a.frame?)
    (hg : g ∈ b.frame?) : (glbApart o a b).frame? = o.frameGlb? f g := by
  cases a <;> cases hf <;> cases b <;> cases hg <;> simp only [glbApart]
  all_goals cases o.frameGlb? f g <;> rfl

theorem le_glb_iff {a b c : Qualifier} (ha : le o c a = true) (hb : le o c b = true) :
    le o c (glb o a b) = true ↔ ∀ f ∈ a.frame?, ∀ g ∈ b.frame?, ∀ k ∈ c.frame?,
      ∃ m, o.frameGlb? f g = some m ∧ o.frameLe k m = true := by
  constructor
  · intro hglb f hf g hg k hk
    have hkf := frameLe_of_le hk hf ha
    have hkg := frameLe_of_le hk hg hb
    unfold glb at hglb
    split at hglb
    · rename_i hab
      rw [TypeOracle.frameGlb?, if_pos (frameLe_of_le hf hg hab)]
      exact ⟨f, rfl, hkf⟩
    · split at hglb
      · rename_i hba
        have hgf := frameLe_of_le hg hf hba
        rw [TypeOracle.frameGlb?, if_pos hgf]
        split
        · exact ⟨f, rfl, hkf⟩
        · exact ⟨g, rfl, hkg⟩
      · obtain ⟨m, hm, hkm⟩ := exists_frame_of_le hk hglb
        rw [frame?_glbApart hf hg] at hm
        exact ⟨m, hm, hkm⟩
  · intro greatest
    exact le_glb (fun f hf g hg k hk _ _ => greatest f hf g hg k hk) ha hb

/-! ## Over an untrusted oracle -/

/-- No answer of an oracle can make a lower bound fail to be below both. If every frame is below the
root, none can make an upper bound fail to be above both, so what is above a qualifier leaves it as
the lower bound. -/
theorem bounds_over_any_oracle (o : TypeOracle) (a b : Qualifier) :
    (le o (glb o a b) a = true ∧ le o (glb o a b) b = true) ∧
      ((∀ f, o.isSubtype f o.root = true) →
        (le o a (lub o a b) = true ∧ le o b (lub o a b) = true) ∧ glb o a (lub o a b) = a) := by
  refine ⟨glb_le o a b, fun rooted => ?_⟩
  have root : ∀ q : Qualifier, ∀ f ∈ q.frame?, o.frameLe f o.root = true :=
    fun _ f _ => TypeOracle.frameLe_iff.mpr (.inr (rooted f))
  have upper := le_lub (root a) (root b)
  exact ⟨upper, glb_of_le upper.1⟩

/-- The answers of the liar are used where its own order confirms them, here for a lower bound, and
replaced by the root where it does not. Its order is too poor for the other law of absorption; and
where frames are not below the root, an upper bound need not be above. -/
theorem bounds_over_any_oracle_of_liar :
    (∀ f, TypeOracle.liar.isSubtype f TypeOracle.liar.root = true) ∧
      glb .liar (under ⟨1⟩) (under ⟨2⟩) = under ⟨3⟩ ∧
      (le .liar (under ⟨3⟩) (under ⟨1⟩) = true ∧ le .liar (under ⟨3⟩) (under ⟨2⟩) = true) ∧
      lub .liar (under ⟨1⟩) (unknown ⟨2⟩) = unknown ⟨0⟩ ∧
      (le .liar (under ⟨1⟩) (unknown ⟨0⟩) = true ∧ le .liar (unknown ⟨2⟩) (unknown ⟨0⟩) = true) ∧
      glb .liar (under ⟨1⟩) (unknown ⟨0⟩) = under ⟨1⟩ ∧
      lub .liar (under ⟨1⟩) (glb .liar (under ⟨1⟩) (under ⟨2⟩)) = under ⟨3⟩ ∧
      le .scattered (under ⟨1⟩) (lub .scattered (under ⟨1⟩) (under ⟨2⟩)) = false := by
  have lower := (bounds_over_any_oracle .liar (under ⟨1⟩) (under ⟨2⟩)).1
  have upper := (bounds_over_any_oracle .liar (under ⟨1⟩) (unknown ⟨2⟩)).2
    TypeOracle.liar_isSubtype_root
  have hglb : glb .liar (under ⟨1⟩) (under ⟨2⟩) = under ⟨3⟩ := by decide
  have hlub : lub .liar (under ⟨1⟩) (unknown ⟨2⟩) = unknown ⟨0⟩ := by decide
  rw [hglb] at lower
  rw [hlub] at upper
  exact ⟨TypeOracle.liar_isSubtype_root, hglb, lower, hlub, upper.1, upper.2, by decide, by decide⟩

/-! ## Over an oracle with joins -/

theorem le_lub_of_hasJoins (h : o.HasJoins) (a b : Qualifier) :
    le o a (lub o a b) = true ∧ le o b (lub o a b) = true :=
  le_lub (fun f _ => h.frameLe_root f) fun f _ => h.frameLe_root f

theorem lub_le_of_hasJoins (h : o.HasJoins) {a b c : Qualifier} :
    le o a c = true → le o b c = true → le o (lub o a b) c = true :=
  lub_le fun _ _ _ _ _ _ => h.frameLub_le

theorem lub_le_iff_of_hasJoins (h : o.HasJoins) {a b c : Qualifier} :
    le o (lub o a b) c = true ↔ le o a c = true ∧ le o b c = true := by
  obtain ⟨ha, hb⟩ := le_lub_of_hasJoins h a b
  have trans := fun f g k => h.trans (a := f) (b := g) (c := k)
  constructor
  · intro hc
    exact ⟨le_trans_of_trans trans ha hc, le_trans_of_trans trans hb hc⟩
  · intro ⟨hac, hbc⟩
    exact lub_le_of_hasJoins h hac hbc

/-! ## Over a lawful oracle -/

theorem isBoundedLattice (h : o.Lawful) : o.qualifiers.IsBoundedLattice where
  le_refl := le_refl o
  le_antisymm := le_antisymm fun _ _ _ _ => h.hasJoins.frameLe_antisymm
  le_trans := le_trans_of_trans fun _ _ _ => h.trans
  bottom_le := bottom_le o
  le_top _ := le_top fun f _ => h.hasJoins.frameLe_root f
  le_lub_left a b := (le_lub_of_hasJoins h.hasJoins a b).1
  le_lub_right a b := (le_lub_of_hasJoins h.hasJoins a b).2
  lub_le := lub_le_of_hasJoins h.hasJoins
  glb_le_left a b := (glb_le o a b).1
  glb_le_right a b := (glb_le o a b).2
  le_glb := le_glb fun _ _ _ _ _ _ => h.le_frameGlb?

/-- Over a lawful oracle the qualifiers are a bounded lattice, with the algebra that follows, and
the bound of a list is the least above its members in whatever order they stand. -/
theorem boundedLattice_of_lawful (h : o.Lawful) :
    o.qualifiers.IsBoundedLattice ∧
      ((∀ a b, lub o a b = lub o b a) ∧ (∀ a b c, lub o (lub o a b) c = lub o a (lub o b c)) ∧
        ∀ a b, lub o a (glb o a b) = a) ∧
      ((∀ a b, glb o a b = glb o b a) ∧ (∀ a b c, glb o (glb o a b) c = glb o a (glb o b c)) ∧
        ∀ a b, glb o a (lub o a b) = a) ∧
      ∀ qs, (∀ q ∈ qs, le o q (lubAll o qs) = true) ∧
        (∀ c, (∀ q ∈ qs, le o q c = true) → le o (lubAll o qs) c = true) ∧
        ∀ qs', qs.Perm qs' → lubAll o qs = lubAll o qs' := by
  have hl := isBoundedLattice h
  refine ⟨hl, ⟨hl.lub_comm, hl.lub_assoc, hl.lub_glb_self⟩,
    ⟨hl.glb_comm, hl.glb_assoc, hl.glb_lub_self⟩, fun qs => ⟨?_, ?_, ?_⟩⟩
  · have hself : le o (lubAll o qs) (lubAll o qs) = true := le_refl o _
    exact (hl.foldl_lub_le_iff.mp hself).2
  · intro c hc
    exact hl.foldl_lub_le_iff.mpr ⟨bottom_le o c, hc⟩
  · intro qs' p
    exact hl.foldl_lub_perm p bottom

theorem boundedLattice_of_lawful_of_diamond :
    TypeOracle.diamond.Lawful ∧ TypeOracle.diamond.qualifiers.IsBoundedLattice ∧
      lub .diamond (under ⟨1⟩) (under ⟨2⟩) = under ⟨0⟩ ∧
      glb .diamond (unknown ⟨1⟩) (unknown ⟨2⟩) = unknown ⟨3⟩ ∧
      glb .diamond (unknown ⟨1⟩) (unknown ⟨4⟩) = initialized ∧
      lubAll .diamond [under ⟨1⟩, initialized, under ⟨3⟩] = unknown ⟨1⟩ ∧
      lubAll .diamond [under ⟨1⟩, initialized, under ⟨3⟩] =
        lubAll .diamond [initialized, under ⟨1⟩, under ⟨3⟩] :=
  have law := boundedLattice_of_lawful TypeOracle.diamond_lawful
  ⟨TypeOracle.diamond_lawful, law.1, by decide, by decide, by decide, by decide,
    (law.2.2.2 _).2.2 _ (.swap ..)⟩

end ObjectInit.Qualifier
