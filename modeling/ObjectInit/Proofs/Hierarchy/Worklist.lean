import ObjectInit.Proofs.Hierarchy.Bounds
import ObjectInit.Proofs.Hierarchy.DepthLimit

/-! # Ancestors by a worklist

A frame may wait in the queue more than once, along paths of different lengths; since the queue is
in order of depth, the first time it comes up is along a shortest path, so nothing within the limit
is cut off by a longer way to the same frame.
-/

namespace ObjectInit.Hierarchy

variable {h : Hierarchy} {seen : FrameSet} {queue : List (Frame × Nat)} {a f : Frame} {depth : Nat}

/-! ## The queue -/

/-- What a frame at a depth puts in the queue: its parents, one edge further, up to the limit. -/
def waiting (h : Hierarchy) (f : Frame) (depth : Nat) : List (Frame × Nat) :=
  if depth < depthLimit then (h.parents f).map fun p => (p, depth + 1) else []

def unseen (h : Hierarchy) (seen : FrameSet) : List Frame :=
  h.frames.filter fun f => !seen.contains f

theorem waiting_of_unknown (unknown : ¬h.knows f = true) : h.waiting f depth = [] := by
  have childless : h.parents f = [] :=
    List.eq_nil_iff_forall_not_mem.mpr fun p parent => unknown (knows_of_mem_parents parent)
  unfold waiting
  rw [childless, List.map_nil, ite_self]

theorem unseen_insert (h : Hierarchy) (seen : FrameSet) (f : Frame) :
    h.unseen (seen.insert f) = (h.unseen seen).filter (· ≠ f) := by
  unfold unseen
  rw [List.filter_filter]
  refine List.filter_congr fun g _ => ?_
  rw [Bool.eq_iff_iff, Bool.not_eq_true', Bool.eq_false_iff, Ne, FrameSet.contains_insert]
  simp

theorem mem_unseen {g : Frame} :
    g ∈ h.unseen seen ↔ h.knows g = true ∧ seen.contains g = false := by
  rw [unseen, List.mem_filter, mem_frames, Bool.not_eq_true']

theorem length_unseen_insert (known : h.knows f = true) (fresh : seen.contains f = false) :
    (h.unseen (seen.insert f)).length < (h.unseen seen).length := by
  rw [unseen_insert, List.length_filter_lt_length_iff_exists]
  exact ⟨f, mem_unseen.mpr ⟨known, fresh⟩, by simp⟩

theorem unseen_insert_of_unknown (unknown : ¬h.knows f = true) :
    h.unseen (seen.insert f) = h.unseen seen := by
  rw [unseen_insert, List.filter_eq_self]
  intro g hg
  have other : g ≠ f := fun same => unknown (same ▸ (mem_unseen.mp hg).1)
  exact decide_eq_true other

/-- Takes the frames of the queue in turn. A frame that is not in the set yet enters it, and its
parents go to the end of the queue. -/
def walk (h : Hierarchy) (seen : FrameSet) : List (Frame × Nat) → FrameSet
  | [] => seen
  | (f, depth) :: rest =>
    if seen.contains f then h.walk seen rest
    else h.walk (seen.insert f) (rest ++ h.waiting f depth)
termination_by queue => ((h.unseen seen).length, queue.length)
decreasing_by
  · exact Prod.Lex.right _ (Nat.lt_succ_self _)
  · rename_i fresh
    by_cases known : h.knows f = true
    · exact Prod.Lex.left _ _ (length_unseen_insert known (Bool.eq_false_iff.mpr fresh))
    · -- A frame without an entry has no parents, so the queue gets shorter.
      rw [unseen_insert_of_unknown known, waiting_of_unknown known, List.append_nil]
      exact Prod.Lex.right _ (Nat.lt_succ_self _)

/-- What the queue finds from a frame on, and the root if the frame is known. -/
def visited (h : Hierarchy) (a : Frame) : FrameSet :=
  let seen := h.walk FrameSet.empty [(a, 0)]
  if h.knows a then seen.insert root else seen

/-! ## What each turn keeps -/

theorem Inherits.exists_last {n : Nat} {g : Frame} (path : h.Inherits (n + 1) a g) :
    ∃ f, h.Inherits n a f ∧ g ∈ h.parents f := by
  induction n generalizing a with
  | zero =>
      cases path with
      | step parent rest =>
          cases rest
          exact ⟨a, .refl a, parent⟩
  | succ n ih =>
      cases path with
      | step parent rest =>
          obtain ⟨f, path, last⟩ := ih rest
          exact ⟨f, .step parent path, last⟩

/-- What holds between the turns of a walk that began at a frame. The queue is in order of depth,
and its depths differ by one at most. A parent of a frame in the set is in the set, or waits no
deeper than any path to the frame would put it. -/
structure Walked (h : Hierarchy) (a : Frame) (seen : FrameSet) (queue : List (Frame × Nat)) :
    Prop where
  start : seen.contains a = true ∨ (a, 0) ∈ queue
  seen_sound : ∀ f, seen.contains f = true → ∃ n ≤ depthLimit, h.Inherits n a f
  queue_sound : ∀ x ∈ queue, x.2 ≤ depthLimit ∧ h.Inherits x.2 a x.1
  sorted : queue.Pairwise fun x y => x.2 ≤ y.2
  spread : ∀ x ∈ queue, ∀ y ∈ queue, y.2 ≤ x.2 + 1
  onward : ∀ f, seen.contains f = true → ∀ n < depthLimit, h.Inherits n a f →
    ∀ p ∈ h.parents f, seen.contains p = true ∨ ∃ d ≤ n + 1, (p, d) ∈ queue

theorem mem_waiting {x : Frame × Nat} :
    x ∈ h.waiting f depth ↔ depth < depthLimit ∧ x.1 ∈ h.parents f ∧ x.2 = depth + 1 := by
  unfold waiting
  split
  · rename_i within
    rw [List.mem_map]
    constructor
    · rintro ⟨p, parent, rfl⟩
      exact ⟨within, parent, rfl⟩
    · rintro ⟨-, parent, deeper⟩
      exact ⟨x.1, parent, Prod.ext rfl deeper.symm⟩
  · rename_i beyond
    simp [beyond]

namespace Walked

theorem initial (h : Hierarchy) (a : Frame) : h.Walked a FrameSet.empty [(a, 0)] where
  start := .inr (List.mem_singleton.mpr rfl)
  seen_sound f hf := by simp at hf
  queue_sound x hx := by
    rw [List.mem_singleton.mp hx]
    exact ⟨Nat.zero_le _, .refl a⟩
  sorted := List.pairwise_singleton _ _
  spread x hx y hy := by
    rw [List.mem_singleton.mp hx, List.mem_singleton.mp hy]
    exact Nat.zero_le _
  onward f hf := by simp at hf

/-- Where a path within the limit leads is in the set, or the queue has not come to that depth. -/
theorem seen_or_waiting (w : h.Walked a seen queue) {n : Nat} {g : Frame}
    (path : h.Inherits n a g) (within : n ≤ depthLimit) :
    seen.contains g = true ∨ ∃ x ∈ queue, x.2 ≤ n := by
  -- By the last edge: once the frame before it is in the set, the frame after it joined the queue.
  induction n generalizing g with
  | zero =>
      cases path
      exact w.start.imp_right fun hqueue => ⟨_, hqueue, Nat.le_refl 0⟩
  | succ n ih =>
      obtain ⟨f, path, parent⟩ := path.exists_last
      obtain hf | ⟨x, hx, hdepth⟩ := ih path (Nat.le_of_succ_le within)
      · refine (w.onward f hf n within path g parent).imp_right ?_
        rintro ⟨d, hd, hqueue⟩
        exact ⟨_, hqueue, hd⟩
      · exact .inr ⟨x, hx, Nat.le_succ_of_le hdepth⟩

/-- A frame that has not been taken yet waits at the head along a shortest path. -/
theorem head_shortest {rest : List (Frame × Nat)} (w : h.Walked a seen ((f, depth) :: rest))
    (fresh : seen.contains f = false) {n : Nat} (path : h.Inherits n a f) : depth ≤ n := by
  obtain beyond | within := Nat.lt_or_ge depthLimit n
  · have hlimit := (w.queue_sound _ List.mem_cons_self).1
    exact Nat.le_trans hlimit (Nat.le_of_lt beyond)
  · obtain hf | ⟨x, hx, hdepth⟩ := w.seen_or_waiting path within
    · rw [hf] at fresh
      cases fresh
    · obtain rfl | hx := List.mem_cons.mp hx
      · exact hdepth
      · exact Nat.le_trans ((List.pairwise_cons.mp w.sorted).1 x hx) hdepth

theorem seen_or_mem_rest {rest : List (Frame × Nat)} (hf : seen.contains f = true) {p : Frame}
    {d : Nat} (hp : (p, d) ∈ (f, depth) :: rest) : seen.contains p = true ∨ (p, d) ∈ rest := by
  obtain same | hp := List.mem_cons.mp hp
  · cases same
    exact .inl hf
  · exact .inr hp

theorem skip {rest : List (Frame × Nat)} (w : h.Walked a seen ((f, depth) :: rest))
    (hf : seen.contains f = true) : h.Walked a seen rest where
  start := by
    obtain ha | ha := w.start
    · exact .inl ha
    · exact seen_or_mem_rest hf ha
  seen_sound := w.seen_sound
  queue_sound x hx := w.queue_sound x (List.mem_cons_of_mem _ hx)
  sorted := (List.pairwise_cons.mp w.sorted).2
  spread x hx y hy := w.spread x (List.mem_cons_of_mem _ hx) y (List.mem_cons_of_mem _ hy)
  onward g hg n hn path p parent := by
    obtain hp | ⟨d, hd, hp⟩ := w.onward g hg n hn path p parent
    · exact .inl hp
    · exact (seen_or_mem_rest hf hp).imp_right fun hp => ⟨d, hd, hp⟩

theorem depth_bounds {rest : List (Frame × Nat)} (w : h.Walked a seen ((f, depth) :: rest)) :
    ∀ x ∈ (f, depth) :: rest ++ h.waiting f depth, depth ≤ x.2 ∧ x.2 ≤ depth + 1 := by
  intro x hx
  obtain hx | hx := List.mem_append.mp hx
  · refine ⟨?_, w.spread _ List.mem_cons_self x hx⟩
    obtain rfl | hx := List.mem_cons.mp hx
    · exact Nat.le_refl _
    · exact (List.pairwise_cons.mp w.sorted).1 x hx
  · rw [(mem_waiting.mp hx).2.2]
    exact ⟨Nat.le_succ _, Nat.le_refl _⟩

theorem enter {rest : List (Frame × Nat)} (w : h.Walked a seen ((f, depth) :: rest))
    (fresh : seen.contains f = false) :
    h.Walked a (seen.insert f) ((f, depth) :: rest ++ h.waiting f depth) where
  start := by
    refine w.start.imp (fun ha => ?_) (List.mem_append_left _)
    exact (FrameSet.contains_insert _ _ _).mpr (.inr ha)
  seen_sound g hg := by
    obtain rfl | hg := (FrameSet.contains_insert _ _ _).mp hg
    · exact ⟨depth, w.queue_sound _ List.mem_cons_self⟩
    · exact w.seen_sound g hg
  queue_sound x hx := by
    obtain hx | hx := List.mem_append.mp hx
    · exact w.queue_sound x hx
    · obtain ⟨within, parent, deeper⟩ := mem_waiting.mp hx
      obtain ⟨-, path⟩ := w.queue_sound _ List.mem_cons_self
      rw [deeper]
      exact ⟨within, path.trans (.step parent (.refl _))⟩
  sorted := by
    refine List.pairwise_append.mpr ⟨w.sorted, ?_, fun x hx y hy => ?_⟩
    · refine List.pairwise_of_forall_mem_list fun x hx y hy => ?_
      exact Nat.le_of_eq ((mem_waiting.mp hx).2.2.trans (mem_waiting.mp hy).2.2.symm)
    · rw [(mem_waiting.mp hy).2.2]
      exact w.spread _ List.mem_cons_self x hx
  spread x hx y hy := by
    have hlow := (w.depth_bounds x hx).1
    have hhigh := (w.depth_bounds y hy).2
    omega
  onward g hg n hn path p parent := by
    obtain rfl | hg := (FrameSet.contains_insert _ _ _).mp hg
    · -- The new frame came up along a shortest path, so its parents wait no deeper than any.
      have hdepth := w.head_shortest fresh path
      have hp : (p, depth + 1) ∈ h.waiting g depth :=
        mem_waiting.mpr ⟨Nat.lt_of_le_of_lt hdepth hn, parent, rfl⟩
      exact .inr ⟨depth + 1, Nat.succ_le_succ hdepth, List.mem_append_right _ hp⟩
    · obtain hp | ⟨d, hd, hp⟩ := w.onward g hg n hn path p parent
      · exact .inl ((FrameSet.contains_insert _ _ _).mpr (.inr hp))
      · exact .inr ⟨d, hd, List.mem_append_left _ hp⟩

theorem visit {rest : List (Frame × Nat)} (w : h.Walked a seen ((f, depth) :: rest))
    (fresh : seen.contains f = false) :
    h.Walked a (seen.insert f) (rest ++ h.waiting f depth) :=
  (w.enter fresh).skip ((FrameSet.contains_insert _ _ _).mpr (.inl rfl))

theorem run (w : h.Walked a seen queue) : h.Walked a (h.walk seen queue) [] := by
  induction seen, queue using walk.induct h with
  | case1 seen =>
      rw [walk]
      exact w
  | case2 seen f depth rest hf ih =>
      rw [walk, if_pos hf]
      exact ih (w.skip hf)
  | case3 seen f depth rest fresh ih =>
      rw [walk, if_neg fresh]
      exact ih (w.visit (Bool.eq_false_iff.mpr fresh))

end Walked

/-! ## What the walk finds -/

theorem contains_walk (h : Hierarchy) (a g : Frame) :
    (h.walk FrameSet.empty [(a, 0)]).contains g = true ↔ ∃ n ≤ depthLimit, h.Inherits n a g := by
  have w := (Walked.initial h a).run
  constructor
  · exact w.seen_sound g
  · rintro ⟨n, within, path⟩
    obtain hg | ⟨x, hx, -⟩ := w.seen_or_waiting path within
    · exact hg
    · cases hx

theorem contains_visited (h : Hierarchy) (a g : Frame) :
    (h.visited a).contains g = true ↔
      (∃ n ≤ depthLimit, h.Inherits n a g) ∨ (h.knows a = true ∧ g = root) := by
  unfold visited
  split
  · rename_i known
    rw [FrameSet.contains_insert, contains_walk, or_comm]
    simp only [known, true_and]
  · rename_i unknown
    rw [contains_walk]
    simp [unknown]

theorem inherits_of_unknown (unknown : ¬h.knows a = true) {n : Nat} {g : Frame} :
    h.Inherits n a g ↔ n = 0 ∧ g = a := by
  constructor
  · intro path
    cases path with
    | refl => exact ⟨rfl, rfl⟩
    | step parent _ => exact absurd (knows_of_mem_parents parent) unknown
  · rintro ⟨rfl, rfl⟩
    exact .refl g

theorem Reachable.mem_ancestors (hr : h.Reachable) (a g : Frame) :
    g ∈ h.ancestors a ↔
      (∃ n ≤ depthLimit, h.Inherits n a g) ∨ (h.knows a = true ∧ g = root) := by
  unfold ancestors
  split
  · rename_i known
    simp only [known, true_and]
    rw [List.mem_filter, mem_frames, contains_lineage known, or_comm, and_iff_right_iff_imp]
    rintro (⟨n, -, path⟩ | rfl)
    · exact hr.parentsFirst.knows_of_inherits path known
    · exact hr.knows_root
  · rename_i unknown
    simp only [unknown, Bool.false_eq_true, false_and, or_false, inherits_of_unknown unknown,
      List.mem_singleton]
    constructor
    · exact fun same => ⟨0, Nat.zero_le _, rfl, same⟩
    · exact fun ⟨_, _, _, same⟩ => same

theorem nodup_ancestors (h : Hierarchy) (a : Frame) : (h.ancestors a).Nodup := by
  unfold ancestors
  split
  · exact nodup_frames.filter _
  · exact by simp

theorem ancestors_of_unknown (unknown : h.knows a = false) : h.ancestors a = [a] := by
  rw [ancestors, if_neg (Bool.eq_false_iff.mp unknown)]

/-- The ancestors of a frame are the frames that the paths within the limit lead to, each once, and
for a known frame the root; a frame without an entry has only itself. The queue finds the same
frames. One known frame is a subtype of another if it is the same, if the other is the root, or if
some path within the limit leads there, whatever longer ones there are. -/
theorem Reachable.ancestors_within_limit (hr : h.Reachable) (a : Frame) :
    (∀ b, b ∈ h.ancestors a ↔
        (∃ n ≤ depthLimit, h.Inherits n a b) ∨ (h.knows a = true ∧ b = root)) ∧
      (h.ancestors a).Nodup ∧
      (h.knows a = false → h.ancestors a = [a]) ∧
      (∀ b, (h.visited a).contains b = true ↔ b ∈ h.ancestors a) ∧
      ∀ b, h.isSubtype a b = true ↔ h.knows a = true ∧ h.knows b = true ∧
        (a = b ∨ b = root ∨ ∃ n ≤ depthLimit, h.Inherits n a b) := by
  refine ⟨hr.mem_ancestors a, h.nodup_ancestors a, ancestors_of_unknown, ?queue, ?subtype⟩
  case queue =>
    intro b
    rw [contains_visited, hr.mem_ancestors]
  case subtype =>
    intro b
    rw [isSubtype_iff]
    refine and_congr_right fun _ => and_congr_right fun _ => ⟨.inr, ?_⟩
    rintro (rfl | hb)
    · exact .inr ⟨0, Nat.zero_le _, .refl a⟩
    · exact hb

/-- The last of 1,026 classes in a chain has the second class and the root among its ancestors, and
not the first class. A frame beyond the chain has only itself. -/
theorem ancestors_within_limit_of_chain :
    (chain 1026).Reachable ∧ (chain 1026).knows ⟨2000⟩ = false ∧
      ⟨2⟩ ∈ (chain 1026).ancestors ⟨1026⟩ ∧ root ∈ (chain 1026).ancestors ⟨1026⟩ ∧
      ⟨1⟩ ∉ (chain 1026).ancestors ⟨1026⟩ ∧
      ((chain 1026).visited ⟨1026⟩).contains ⟨1⟩ = false ∧
      (chain 1026).ancestors ⟨2000⟩ = [⟨2000⟩] := by
  have hr := chain_reachable 1026
  have known : (chain 1026).knows ⟨1026⟩ = true := knows_chain_iff.mpr (Nat.le_refl _)
  have unknown : (chain 1026).knows ⟨2000⟩ = false := by
    rw [Bool.eq_false_iff, Ne, knows_chain_iff]
    omega
  obtain ⟨members, -, -, queue, -⟩ := hr.ancestors_within_limit ⟨1026⟩
  obtain ⟨-, -, alone, -, -⟩ := hr.ancestors_within_limit ⟨2000⟩
  have first : ⟨1⟩ ∉ (chain 1026).ancestors ⟨1026⟩ := by
    rw [members]
    simp only [inherits_chain_iff (Nat.le_refl 1026), depthLimit, root]
    rintro (⟨n, within, hn⟩ | ⟨-, hroot⟩)
    · omega
    · cases hroot
  refine ⟨hr, unknown, (members _).mpr (.inl ⟨1024, Nat.le_refl _, ?second⟩),
    (members _).mpr (.inr ⟨known, rfl⟩), first, ?taken, alone unknown⟩
  case second => exact (inherits_chain_iff (Nat.le_refl _)).mpr rfl
  case taken =>
    rw [Bool.eq_false_iff, Ne, queue]
    exact first

end ObjectInit.Hierarchy
