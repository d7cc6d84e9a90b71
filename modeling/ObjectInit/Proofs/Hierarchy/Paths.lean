import ObjectInit.Proofs.Hierarchy.Growth

/-! # Inheritance paths

Collecting level by level finds exactly the ends of the paths that are no longer than the number of
levels. Since parents come first, a path only leads to earlier frames.
-/

namespace ObjectInit.Hierarchy

/-- A path of so many edges leads from the first frame to the second. -/
inductive Inherits (h : Hierarchy) : Nat → Frame → Frame → Prop
  | refl (f : Frame) : Inherits h 0 f f
  | step {n : Nat} {f p g : Frame} (parent : p ∈ h.parents f) (rest : Inherits h n p g) :
      Inherits h (n + 1) f g

variable {h : Hierarchy}

theorem Inherits.trans {m n : Nat} {f g k : Frame} (first : h.Inherits m f g)
    (second : h.Inherits n g k) : h.Inherits (m + n) f k := by
  induction first with
  | refl f => simpa using second
  | @step m f p g parent rest ih =>
      rw [Nat.succ_add]
      exact .step parent (ih second)

theorem ParentsFirst.index_add_le (hh : h.ParentsFirst) {n : Nat} {f g : Frame}
    (path : h.Inherits n f g) : g.index + n ≤ f.index := by
  induction path with
  | refl f => exact Nat.le_refl _
  | @step n f p g parent rest ih =>
      have hlt := hh f p parent
      omega

theorem ParentsFirst.knows_of_inherits (hh : h.ParentsFirst) {n : Nat} {f g : Frame}
    (path : h.Inherits n f g) (known : h.knows f = true) : h.knows g = true := by
  have hle := hh.index_add_le path
  rw [knows_iff] at known ⊢
  omega

/-! ## Level by level -/

def ClosedUpTo (h : Hierarchy) (seen : FrameSet) (frontier : List Frame) : Prop :=
  ∀ f, seen.contains f = true → f ∉ frontier → ∀ p ∈ h.parents f, seen.contains p = true

def nextLevel (h : Hierarchy) (seen : FrameSet) (frontier : List Frame) : List Frame :=
  seen.fresh (frontier.flatMap h.parents)

theorem mem_nextLevel {seen : FrameSet} {frontier : List Frame} {p : Frame} :
    p ∈ h.nextLevel seen frontier ↔
      (∃ f ∈ frontier, p ∈ h.parents f) ∧ seen.contains p = false := by
  rw [nextLevel, FrameSet.mem_fresh, List.mem_flatMap]

theorem climb_nil (depth : Nat) (seen : FrameSet) : h.climb depth seen [] = seen := by
  cases depth <;> rfl

theorem climb_succ (depth : Nat) (seen : FrameSet) (frontier : List Frame) :
    h.climb (depth + 1) seen frontier =
      h.climb depth (seen.insertAll (h.nextLevel seen frontier)) (h.nextLevel seen frontier) := by
  cases frontier with
  | nil => exact (climb_nil depth seen).symm
  | cons f rest => rfl

namespace ClosedUpTo

variable {seen : FrameSet} {frontier : List Frame}

/-- A path that starts at a seen frame stays among them or leaves through the frontier. -/
theorem inherits_cases (closed : h.ClosedUpTo seen frontier) {n : Nat} {f g : Frame}
    (path : h.Inherits n f g) (hf : seen.contains f = true) :
    seen.contains g = true ∨ ∃ x ∈ frontier, ∃ k ≤ n, h.Inherits k x g := by
  induction path with
  | refl f => exact .inl hf
  | @step n f p g parent rest ih =>
      by_cases hfrontier : f ∈ frontier
      · exact .inr ⟨f, hfrontier, n + 1, Nat.le_refl _, .step parent rest⟩
      · obtain hg | ⟨x, hx, k, hk, path⟩ := ih (closed f hf hfrontier p parent)
        · exact .inl hg
        · exact .inr ⟨x, hx, k, Nat.le_succ_of_le hk, path⟩

theorem parent_seen (closed : h.ClosedUpTo seen frontier) {f p : Frame}
    (hf : seen.contains f = true) (parent : p ∈ h.parents f) :
    (seen.insertAll (h.nextLevel seen frontier)).contains p = true := by
  rw [FrameSet.contains_insertAll, mem_nextLevel]
  cases hp : seen.contains p with
  | true => exact .inr rfl
  | false =>
      by_cases hfrontier : f ∈ frontier
      · exact .inl ⟨⟨f, hfrontier, parent⟩, rfl⟩
      · rw [closed f hf hfrontier p parent] at hp
        cases hp

theorem next (closed : h.ClosedUpTo seen frontier) :
    h.ClosedUpTo (seen.insertAll (h.nextLevel seen frontier)) (h.nextLevel seen frontier) := by
  intro f hf hnext p parent
  rw [FrameSet.contains_insertAll] at hf
  exact closed.parent_seen (hf.resolve_left hnext) parent

end ClosedUpTo

/-- Collecting adds the ends of the paths from the frontier that are no longer than the levels. -/
theorem contains_climb {depth : Nat} {seen : FrameSet} {frontier : List Frame}
    (closed : h.ClosedUpTo seen frontier) (inside : ∀ f ∈ frontier, seen.contains f = true)
    (g : Frame) :
    (h.climb depth seen frontier).contains g = true ↔
      seen.contains g = true ∨ ∃ f ∈ frontier, ∃ k ≤ depth, h.Inherits k f g := by
  induction depth generalizing seen frontier with
  | zero =>
      constructor
      · exact .inl
      · intro hg
        obtain hg | ⟨f, hf, k, hk, path⟩ := hg
        · exact hg
        · obtain rfl := Nat.le_zero.mp hk
          cases path
          exact inside g hf
  | succ depth ih =>
      have hinside : ∀ f ∈ h.nextLevel seen frontier,
          (seen.insertAll (h.nextLevel seen frontier)).contains f = true := fun f hf =>
        (FrameSet.contains_insertAll _ _ _).mpr (.inl hf)
      rw [climb_succ, ih closed.next hinside]
      constructor
      · intro hg
        obtain hg | ⟨p, hp, k, hk, path⟩ := hg
        · rw [FrameSet.contains_insertAll, mem_nextLevel] at hg
          obtain ⟨⟨f, hf, parent⟩, -⟩ | hg := hg
          · exact .inr ⟨f, hf, 1, Nat.succ_le_succ (Nat.zero_le _), .step parent (.refl g)⟩
          · exact .inl hg
        · obtain ⟨⟨f, hf, parent⟩, -⟩ := mem_nextLevel.mp hp
          exact .inr ⟨f, hf, k + 1, Nat.succ_le_succ hk, .step parent path⟩
      · intro hg
        obtain hg | ⟨f, hf, k, hk, path⟩ := hg
        · exact .inl ((FrameSet.contains_insertAll _ _ _).mpr (.inr hg))
        · cases path with
          | refl => exact .inl ((FrameSet.contains_insertAll _ _ _).mpr (.inr (inside g hf)))
          | @step n _ p _ parent rest =>
              -- The first edge ends at the next level, which the rest of the path stays in or
              -- leaves through its frontier.
              have hp := closed.parent_seen (inside f hf) parent
              obtain hg | ⟨x, hx, j, hj, path⟩ := closed.next.inherits_cases rest hp
              · exact .inl hg
              · exact .inr ⟨x, hx, j, by omega, path⟩

/-! ## Subtypes -/

theorem contains_lineage {f : Frame} (known : h.knows f = true) (g : Frame) :
    (h.lineage f).contains g = true ↔ g = root ∨ ∃ k ≤ depthLimit, h.Inherits k f g := by
  have start : ∀ x, (FrameSet.empty.insert f).contains x = true ↔ x = f := by
    intro x
    rw [FrameSet.contains_insert]
    simp
  have closed : h.ClosedUpTo (FrameSet.empty.insert f) [f] := by
    intro x hx hfrontier
    exact absurd (List.mem_singleton.mpr ((start x).mp hx)) hfrontier
  have inside : ∀ x ∈ [f], (FrameSet.empty.insert f).contains x = true := by
    intro x hx
    exact (start x).mpr (List.mem_singleton.mp hx)
  rw [lineage, if_pos known, FrameSet.contains_insert, contains_climb closed inside, start]
  refine or_congr_right ⟨?_, ?_⟩
  · intro hg
    obtain rfl | ⟨x, hx, k, hk, path⟩ := hg
    · exact ⟨0, Nat.zero_le _, .refl _⟩
    · rw [List.mem_singleton.mp hx] at path
      exact ⟨k, hk, path⟩
  · intro ⟨k, hk, path⟩
    exact .inr ⟨f, List.mem_singleton.mpr rfl, k, hk, path⟩

theorem isSubtype_iff {a b : Frame} :
    h.isSubtype a b = true ↔ h.knows a = true ∧ h.knows b = true ∧
      (b = root ∨ ∃ k ≤ depthLimit, h.Inherits k a b) := by
  unfold isSubtype isBelow
  rw [Bool.and_eq_true, Bool.and_eq_true, and_assoc]
  refine and_congr_right fun known => and_congr_right fun _ => ?_
  rw [Bool.or_eq_true, Bool.or_eq_true, decide_eq_true_eq, decide_eq_true_eq,
    contains_lineage known]
  constructor
  · intro hb
    obtain (rfl | hb) | hb := hb
    · exact .inr ⟨0, Nat.zero_le _, .refl _⟩
    · exact .inl hb
    · exact hb
  · exact .inr

theorem ParentsFirst.isSubtype_parent (hh : h.ParentsFirst) {f p : Frame}
    (parent : p ∈ h.parents f) : h.isSubtype f p = true := by
  have hone : 1 ≤ depthLimit := by decide
  exact isSubtype_iff.mpr ⟨knows_of_mem_parents parent, hh.knows_parent parent,
    .inr ⟨1, hone, .step parent (.refl p)⟩⟩

theorem ParentsFirst.index_le_of_isSubtype (hh : h.ParentsFirst) {a b : Frame}
    (hab : h.isSubtype a b = true) : b.index ≤ a.index := by
  obtain ⟨-, -, rfl | ⟨k, -, path⟩⟩ := isSubtype_iff.mp hab
  · exact Nat.zero_le _
  · have hle := hh.index_add_le path
    omega

theorem ParentsFirst.frameLe_supertypeOrRoot (hh : h.ParentsFirst) {f : Frame} (hf : f ≠ root) :
    h.oracle.frameLe (h.oracle.supertypeOrRoot f) f = false := by
  have hlt := hh.supertypeOrRoot_lt hf
  unfold TypeOracle.frameLe
  rw [Bool.or_eq_false_iff, decide_eq_false_iff_not]
  constructor
  · intro same
    rw [same] at hlt
    exact Nat.lt_irrefl _ hlt
  · cases hsub : h.oracle.isSubtype (h.oracle.supertypeOrRoot f) f with
    | false => rfl
    | true => exact absurd (hh.index_le_of_isSubtype hsub) (Nat.not_le.mpr hlt)

end ObjectInit.Hierarchy
