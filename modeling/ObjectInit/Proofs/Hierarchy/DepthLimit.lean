import ObjectInit.Proofs.Hierarchy.WellFormed

/-! # Subtyping beyond the depth limit

Two steps up can fail to be one in exactly one way: paths lead there, and all of them are beyond the
limit. A chain of single classes shows that this happens as soon as a hierarchy is deep enough.
-/

namespace ObjectInit.Hierarchy

variable {h : Hierarchy}

/-! ## Where the order is transitive -/

/-- Whatever inherits from a frame other than the root does so within the limit, by a shorter way if
need be. -/
def PathsShorten (h : Hierarchy) : Prop :=
  ∀ n a b, h.Inherits n a b → b = root ∨ ∃ k ≤ depthLimit, h.Inherits k a b

theorem ParentsFirst.isSubtype_of_inherits (hh : h.ParentsFirst)
    (trans : ∀ a b c, h.isSubtype a b = true → h.isSubtype b c = true → h.isSubtype a c = true)
    {n : Nat} {a b : Frame} (path : h.Inherits n a b) (known : h.knows a = true) :
    h.isSubtype a b = true := by
  induction path with
  | refl a => exact isSubtype_refl known
  | @step n a p b parent rest ih =>
      exact trans a p b (hh.isSubtype_parent parent) (ih (hh.knows_parent parent))

theorem ParentsFirst.isSubtype_trans_iff_pathsShorten (hh : h.ParentsFirst) :
    (∀ a b c, h.isSubtype a b = true → h.isSubtype b c = true → h.isSubtype a c = true) ↔
      h.PathsShorten := by
  constructor
  · intro trans n a b path
    cases path with
    | refl => exact .inr ⟨0, Nat.zero_le _, .refl a⟩
    | @step n _ p _ parent rest =>
        have hab := hh.isSubtype_of_inherits trans (.step parent rest) (knows_of_mem_parents parent)
        exact (isSubtype_iff.mp hab).2.2
  · intro shorten a b c hab hbc
    refine isSubtype_iff.mpr ⟨(knows_of_isSubtype hab).1, (knows_of_isSubtype hbc).2, ?_⟩
    rcases hh.exists_path_of_isSubtype hab hbc with hc | ⟨n, path⟩
    · exact .inl hc
    · exact shorten n a c path

/-- In a hierarchy of any depth, known frames are below themselves and no two are below each other.
Whatever two steps up lead to, paths lead to, or it is the root; the two steps are one if and only
if one of these paths is within the limit. So the order is transitive exactly if paths shorten. -/
theorem Reachable.isSubtype_order_up_to_limit (hr : h.Reachable) :
    (∀ a, h.knows a = true → h.isSubtype a a = true) ∧
      (∀ a b, h.isSubtype a b = true → h.isSubtype b a = true → a = b) ∧
      (∀ a b c, h.isSubtype a b = true → h.isSubtype b c = true →
        (c = root ∨ ∃ n, h.Inherits n a c) ∧
          (h.isSubtype a c = true ↔ c = root ∨ ∃ k ≤ depthLimit, h.Inherits k a c)) ∧
      ((∀ a b c, h.isSubtype a b = true → h.isSubtype b c = true → h.isSubtype a c = true) ↔
        h.PathsShorten) := by
  refine ⟨?refl, ?antisymm, ?steps, ?trans⟩
  case refl => exact fun a => isSubtype_refl
  case antisymm => exact fun a b => hr.parentsFirst.isSubtype_antisymm
  case steps =>
    intro a b c hab hbc
    refine ⟨hr.parentsFirst.exists_path_of_isSubtype hab hbc, ?_⟩
    rw [isSubtype_iff, (knows_of_isSubtype hab).1, (knows_of_isSubtype hbc).2]
    simp only [true_and]
  case trans => exact hr.parentsFirst.isSubtype_trans_iff_pathsShorten

/-! ## Chains -/

/-- The root and so many classes, each of which extends the one before. -/
def chain : Nat → Hierarchy
  | 0 => withRoot ⟨0⟩
  | n + 1 => ((chain n).addClass ⟨n + 1⟩ (some ⟨n⟩) [] false).2

def chainNode : Nat → ClassNode
  | 0 => ⟨⟨0⟩, none, [], false, false⟩
  | k + 1 => ⟨⟨k + 1⟩, some ⟨k⟩, [], false, false⟩

theorem chain_reachable (n : Nat) : (chain n).Reachable := by
  induction n with
  | zero => exact .withRoot _
  | succ n ih => exact .addClass _ _ _ _ ih

theorem chain_succ_of_size {n : Nat} (size : (chain n).nodes.size = n + 1)
    (entries : ∀ k ≤ n, (chain n).node? ⟨k⟩ = some (chainNode k)) :
    chain (n + 1) = (chain n).grow (chainNode (n + 1)) := by
  have hsuper : (chain n).superclassFault? ⟨n⟩ = none := by
    refine superclassFault?_eq_none_iff.mpr ⟨_, entries n (Nat.le_refl n), ?_⟩
    cases n <;> exact ⟨rfl, rfl⟩
  have hfresh : (chain n).frameOf? ⟨n + 1⟩ = none := by
    refine frameOf?_eq_none_iff.mpr fun f hf => ?_
    obtain ⟨k, hk, hname⟩ := nameOf?_eq_some_iff.mp hf
    have hlt := lt_size_of_node? hk
    have hentry := entries f.index (by omega)
    rw [show (⟨f.index⟩ : Frame) = f from rfl, hk] at hentry
    have hindex : (chainNode f.index).name.index = f.index := by cases f.index <;> rfl
    rw [← Option.some.inj hentry, hname] at hindex
    simp only at hindex
    omega
  simp only [chain, addClass, Option.getD_some, hsuper, List.findSome?_nil, Option.or_none, append,
    hfresh, grow, chainNode]

theorem node?_chain (n : Nat) :
    (chain n).nodes.size = n + 1 ∧ ∀ k ≤ n, (chain n).node? ⟨k⟩ = some (chainNode k) := by
  induction n with
  | zero =>
      refine ⟨rfl, fun k hk => ?_⟩
      obtain rfl := Nat.le_zero.mp hk
      rfl
  | succ n ih =>
      obtain ⟨size, entries⟩ := ih
      rw [chain_succ_of_size size entries]
      refine ⟨by simp [grow, size], fun k hk => ?_⟩
      rw [node?_grow, size]
      split
      · rename_i hlast
        rw [show k = n + 1 from hlast]
      · rename_i hlast
        exact entries k (by simp only at hlast; omega)

theorem knows_chain_iff {n k : Nat} : (chain n).knows ⟨k⟩ = true ↔ k ≤ n := by
  rw [knows_iff, (node?_chain n).1]
  exact Nat.lt_succ_iff

theorem mem_parents_chain_iff {n k : Nat} (hk : k < n) {p : Frame} :
    p ∈ (chain n).parents ⟨k + 1⟩ ↔ p = ⟨k⟩ := by
  rw [mem_parents_iff]
  simp [(node?_chain n).2 (k + 1) hk, chainNode, eq_comm]

theorem inherits_chain_iff {n m a b : Nat} (ha : a ≤ n) :
    (chain n).Inherits m ⟨a⟩ ⟨b⟩ ↔ a = b + m := by
  induction m generalizing a with
  | zero =>
      constructor
      · intro path
        cases path
        rfl
      · rintro rfl
        exact .refl _
  | succ m ih =>
      constructor
      · intro path
        cases path with
        | @step _ _ p _ parent rest =>
            cases a with
            | zero =>
                have hlt := (chain_reachable n).parentsFirst _ _ parent
                exact absurd hlt (Nat.not_lt_zero _)
            | succ a =>
                rw [mem_parents_chain_iff ha] at parent
                subst parent
                have hrest := (ih (Nat.le_of_succ_le ha)).mp rest
                omega
      · intro hab
        obtain rfl : a = b + m + 1 := hab
        exact .step ((mem_parents_chain_iff ha).mpr rfl) ((ih (Nat.le_of_succ_le ha)).mpr rfl)

theorem isSubtype_chain_iff {n a b : Nat} (ha : a ≤ n) :
    (chain n).isSubtype ⟨a⟩ ⟨b⟩ = true ↔ b ≤ a ∧ (b = 0 ∨ a ≤ b + depthLimit) := by
  have hroot : (⟨b⟩ : Frame) = root ↔ b = 0 := by simp [root]
  rw [isSubtype_iff, knows_chain_iff, knows_chain_iff, hroot]
  simp only [inherits_chain_iff ha]
  constructor
  · rintro ⟨-, -, rfl | ⟨k, hk, rfl⟩⟩ <;> omega
  · rintro ⟨hba, hb | hab⟩
    · exact ⟨ha, by omega, .inl hb⟩
    · exact ⟨ha, by omega, .inr ⟨a - b, by omega, by omega⟩⟩

/-- Of 1,026 classes in a chain the last is below the second, which is below the first, and the last
is not below the first. -/
theorem chain_isSubtype_not_trans :
    (chain 1026).Reachable ∧
      ((chain 1026).knows ⟨1026⟩ = true ∧ (chain 1026).knows ⟨2⟩ = true ∧
        (chain 1026).knows ⟨1⟩ = true) ∧
      (chain 1026).isSubtype ⟨1026⟩ ⟨2⟩ = true ∧ (chain 1026).isSubtype ⟨2⟩ ⟨1⟩ = true ∧
        (chain 1026).isSubtype ⟨1026⟩ ⟨1⟩ = false := by
  refine ⟨chain_reachable _, ?known, ?first, ?second, ?composed⟩
  case known =>
    simp only [knows_chain_iff]
    omega
  case first => exact (isSubtype_chain_iff (by omega)).mpr (by simp [depthLimit])
  case second => exact (isSubtype_chain_iff (by omega)).mpr (by simp [depthLimit])
  case composed =>
    rw [Bool.eq_false_iff, Ne, isSubtype_chain_iff (by omega)]
    simp [depthLimit]

/-- With one class less the order is transitive, and the longest path has as many edges as are
followed. In the longer chain the last class inherits from the first beyond the limit. -/
theorem isSubtype_order_up_to_limit_of_chains :
    (chain 1025).Reachable ∧ (chain 1026).Reachable ∧
      (∀ a b c, (chain 1025).isSubtype a b = true → (chain 1025).isSubtype b c = true →
        (chain 1025).isSubtype a c = true) ∧
      (∃ n, (chain 1026).Inherits n ⟨1026⟩ ⟨1⟩) ∧
      ¬∃ k ≤ depthLimit, (chain 1026).Inherits k ⟨1026⟩ ⟨1⟩ := by
  obtain ⟨-, -, -, short⟩ := (chain_reachable 1025).isSubtype_order_up_to_limit
  obtain ⟨-, -, long, -⟩ := (chain_reachable 1026).isSubtype_order_up_to_limit
  obtain ⟨path, within⟩ := long ⟨1026⟩ ⟨2⟩ ⟨1⟩ ((isSubtype_chain_iff (by omega)).mpr
    (by simp [depthLimit])) ((isSubtype_chain_iff (by omega)).mpr (by simp [depthLimit]))
  have hroot : (⟨1⟩ : Frame) ≠ root := by decide
  refine ⟨chain_reachable _, chain_reachable _, short.mpr ?_, path.resolve_left hroot, ?_⟩
  · intro n ⟨a⟩ ⟨b⟩ path
    by_cases ha : a ≤ 1025
    · rw [inherits_chain_iff ha] at path
      by_cases hb : b = 0
      · exact .inl (congrArg Frame.mk hb)
      · refine .inr ⟨n, ?_, (inherits_chain_iff ha).mpr path⟩
        simp only [depthLimit]
        omega
    · cases path with
      | refl => exact .inr ⟨0, Nat.zero_le _, .refl _⟩
      | step parent _ => exact absurd (knows_chain_iff.mp (knows_of_mem_parents parent)) ha
  · intro hshort
    have hbelow := within.mpr (.inr hshort)
    rw [isSubtype_chain_iff (by omega)] at hbelow
    simp [depthLimit] at hbelow

end ObjectInit.Hierarchy
