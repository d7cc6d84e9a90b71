import ObjectInit.Proofs.Hierarchy.Bounds
import ObjectInit.Proofs.Qualifier.Lattice

/-! # The qualifiers over a hierarchy

With interfaces two frames may have several lowest frames above them. The bounds of qualifiers are
the least and the greatest exactly where the frames leave no choice, or, for upper bounds, where the
other bound is above a class that is above both frames.
-/

namespace ObjectInit.Qualifier

variable {h : Hierarchy}

/-- The qualifier has no frame, or one that is in the hierarchy. -/
def Over (h : Hierarchy) (q : Qualifier) : Prop := ∀ f ∈ q.frame?, h.knows f = true

instance (q : Qualifier) : Decidable (q.Over h) :=
  inferInstanceAs (Decidable (∀ f ∈ q.frame?, h.knows f = true))

theorem isSubtype_of_le {a b : Qualifier} (ha : a.Over h) {f g : Frame} (hf : f ∈ a.frame?)
    (hg : g ∈ b.frame?) (hab : le h.oracle a b = true) : h.isSubtype f g = true := by
  have hfg := frameLe_of_le hf hg hab
  rw [Hierarchy.frameLe_eq_isSubtype (ha f hf)] at hfg
  exact hfg

/-- Over a hierarchy, the upper bound of two qualifiers is below a qualifier above both if and only
if one of them has no frame, their frames have a least frame above them, or the frame of the third
is above a class that is above both. The lower bound is above a qualifier below both if and only if
one of the three has no frame or the frames of the two have a greatest frame below them. -/
theorem bounds_over_hierarchy_iff (hr : h.Reachable) (hs : h.Shallow) {a b c : Qualifier}
    (ha : a.Over h) (hb : b.Over h) (hc : c.Over h) :
    (le h.oracle a c = true → le h.oracle b c = true →
      (le h.oracle (lub h.oracle a b) c = true ↔
        ∀ f ∈ a.frame?, ∀ g ∈ b.frame?, ∀ k ∈ c.frame?,
          (∃ m, h.oracle.IsLeastAbove f g m) ∨
            ∃ m, h.isInterface m = false ∧ h.isSubtype f m = true ∧ h.isSubtype g m = true ∧
              h.isSubtype m k = true)) ∧
    (le h.oracle c a = true → le h.oracle c b = true →
      (le h.oracle c (glb h.oracle a b) = true ↔
        ∀ f ∈ a.frame?, ∀ g ∈ b.frame?, ∀ k ∈ c.frame?,
          ∃ m, h.oracle.IsGreatestBelow f g m)) := by
  constructor
  · intro hac hbc
    rw [lub_le_iff hac hbc]
    refine forall₂_congr fun f hf => forall₂_congr fun g hg => forall₂_congr fun k hk => ?_
    have hfk := isSubtype_of_le ha hf hk hac
    have hgk := isSubtype_of_le hb hg hk hbc
    have known := (Hierarchy.knows_of_isSubtype (hr.le_frameLub (ha f hf) (hb g hg)).1).2
    rw [Hierarchy.frameLe_eq_isSubtype known]
    exact hr.frameLub_isSubtype_iff hs hfk hgk
  · intro hca hcb
    rw [le_glb_iff hca hcb]
    refine forall₂_congr fun f hf => forall₂_congr fun g hg => forall₂_congr fun k hk => ?_
    have hkf := isSubtype_of_le hc hk hf hca
    have hkg := isSubtype_of_le hc hk hg hcb
    refine exists_congr fun m => ?_
    rw [hr.frameGlb?_eq_some_iff hs (ha f hf) (hb g hg), Hierarchy.frameLe_eq_isSubtype (hc k hk)]
    exact and_iff_left_of_imp fun hm => hm.2.2 k hkf hkg

/-- Two interfaces, a class that implements the first, and two classes that extend it and implement
the second. -/
def crossed : Hierarchy :=
  let interfaces := (((Hierarchy.withRoot ⟨0⟩).addInterface ⟨1⟩ []).2.addInterface ⟨2⟩ []).2
  let middle := (interfaces.addClass ⟨3⟩ none [⟨1⟩] false).2
  ((middle.addClass ⟨4⟩ (some ⟨3⟩) [⟨2⟩] false).2.addClass ⟨5⟩ (some ⟨3⟩) [⟨2⟩] false).2

theorem crossed_reachable : crossed.Reachable :=
  .addClass _ _ _ _ (.addClass _ _ _ _ (.addClass _ _ _ _
    (.addInterface _ _ (.addInterface _ _ (.withRoot _)))))

theorem crossed_shallow : crossed.Shallow :=
  crossed_reachable.parentsFirst.shallow (by decide +kernel)

/-- The two lowest classes are below the second interface and their bound is not; the first of them
is below both interfaces and not below the bound of these. -/
theorem crossed_bounds_not_extreme :
    crossed.Reachable ∧ crossed.Shallow ∧
      ((under ⟨4⟩).Over crossed ∧ (under ⟨5⟩).Over crossed ∧
        (under ⟨1⟩).Over crossed ∧ (under ⟨2⟩).Over crossed) ∧
      (le crossed.oracle (under ⟨4⟩) (under ⟨2⟩) = true ∧
        le crossed.oracle (under ⟨5⟩) (under ⟨2⟩) = true ∧
        le crossed.oracle (lub crossed.oracle (under ⟨4⟩) (under ⟨5⟩)) (under ⟨2⟩) = false) ∧
      (le crossed.oracle (under ⟨4⟩) (under ⟨1⟩) = true ∧
        le crossed.oracle (under ⟨4⟩) (under ⟨2⟩) = true ∧
        le crossed.oracle (under ⟨4⟩) (glb crossed.oracle (under ⟨1⟩) (under ⟨2⟩)) = false) := by
  refine ⟨crossed_reachable, crossed_shallow, ?known, ?upper, ?lower⟩
  case known => decide +kernel
  case upper => decide +kernel
  case lower => decide +kernel

/-- The bound of the two lowest classes is below the first interface, for there is a class between,
and not below the second; the two interfaces have no greatest frame below them. -/
theorem bounds_over_hierarchy_iff_of_crossed :
    (crossed.Reachable ∧ crossed.Shallow) ∧
      ((under ⟨4⟩).Over crossed ∧ (under ⟨5⟩).Over crossed ∧
        (under ⟨1⟩).Over crossed ∧ (under ⟨2⟩).Over crossed) ∧
      le crossed.oracle (lub crossed.oracle (under ⟨4⟩) (under ⟨5⟩)) (under ⟨1⟩) = true ∧
      (¬∃ m, crossed.oracle.IsLeastAbove ⟨4⟩ ⟨5⟩ m) ∧
      ¬∃ m, crossed.oracle.IsGreatestBelow ⟨1⟩ ⟨2⟩ m := by
  have known : (under ⟨4⟩).Over crossed ∧ (under ⟨5⟩).Over crossed ∧
      (under ⟨1⟩).Over crossed ∧ (under ⟨2⟩).Over crossed := by decide +kernel
  obtain ⟨first, second, one, two⟩ := known
  refine ⟨⟨crossed_reachable, crossed_shallow⟩, ⟨first, second, one, two⟩, ?between, ?upper, ?lower⟩
  case between =>
    have law := bounds_over_hierarchy_iff crossed_reachable crossed_shallow first second one
    refine (law.1 (by decide +kernel) (by decide +kernel)).mpr fun f hf g hg k hk => ?_
    cases hf
    cases hg
    cases hk
    exact .inr ⟨⟨3⟩, by decide +kernel⟩
  case upper =>
    intro hleast
    have law := bounds_over_hierarchy_iff crossed_reachable crossed_shallow first second two
    have hle := (law.1 (by decide +kernel) (by decide +kernel)).mpr fun f hf g hg k hk => by
      cases hf
      cases hg
      exact .inl hleast
    exact absurd hle (by decide +kernel)
  case lower =>
    intro hgreatest
    have law := bounds_over_hierarchy_iff crossed_reachable crossed_shallow one two first
    have hle := (law.2 (by decide +kernel) (by decide +kernel)).mpr fun f hf g hg k hk => by
      cases hf
      cases hg
      exact hgreatest
    exact absurd hle (by decide +kernel)

end ObjectInit.Qualifier
