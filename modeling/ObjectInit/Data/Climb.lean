import Mathlib.Data.Nat.Find

/-! # Climbing along links

Nothing is above itself as long as each new link is set to an element that the linked one is not
above.
-/

namespace ObjectInit

universe u

variable {α : Type u}

/-- The element that so many links lead to. -/
def climb (next : α → Option α) : Nat → α → Option α
  | 0, x => some x
  | steps + 1, x => (next x).bind (climb next steps)

/-- The first `n` elements that are met in following links, the start included. -/
def trail (next : α → Option α) : Nat → α → List α
  | 0, _ => []
  | n + 1, x =>
    x :: match next x with
      | some y => trail next n y
      | none => []

/-- No element is met again above itself. -/
def Acyclic (next : α → Option α) : Prop := ∀ x steps, 0 < steps → climb next steps x ≠ some x

variable {next next' : α → Option α}

@[simp] theorem climb_zero (x : α) : climb next 0 x = some x := rfl

theorem climb_succ (steps : Nat) (x : α) :
    climb next (steps + 1) x = (next x).bind (climb next steps) := rfl

theorem climb_add (i j : Nat) (x : α) :
    climb next (i + j) x = (climb next i x).bind (climb next j) := by
  induction i generalizing x with
  | zero => rw [Nat.zero_add, climb_zero, Option.bind_some]
  | succ i ih =>
      rw [Nat.succ_add, climb_succ, climb_succ, Option.bind_assoc]
      exact Option.bind_congr fun y _ => ih y

theorem climb_of_met {i j : Nat} {x y : α} (met : climb next i x = some y) :
    climb next (i + j) x = climb next j y := by
  rw [climb_add, met, Option.bind_some]

/-- Some climb to an element does not pass it on its way. -/
theorem exists_first_climb {steps : Nat} {x y : α} (met : climb next steps x = some y) :
    ∃ first, climb next first x = some y ∧ ∀ i < first, climb next i x ≠ some y := by
  classical
  have found : ∃ steps, climb next steps x = some y := ⟨steps, met⟩
  exact ⟨Nat.find found, Nat.find_spec found, fun i => Nat.find_min found⟩

/-! ## Cycles -/

variable {x : α} {steps : Nat}

theorem climb_mul_of_cycle (cycle : climb next steps x = some x) (rounds : Nat) :
    climb next (steps * rounds) x = some x := by
  induction rounds with
  | zero => rfl
  | succ rounds ih => rw [Nat.mul_succ, climb_of_met ih, cycle]

theorem climb_ne_none_of_cycle (cycle : climb next steps x = some x) (pos : 0 < steps) (i : Nat) :
    climb next i x ≠ none := by
  intro stopped
  have enough : i ≤ steps * i := Nat.le_mul_of_pos_left i pos
  have around := climb_mul_of_cycle cycle i
  rw [← Nat.add_sub_cancel' enough, climb_add, stopped] at around
  cases around

/-! ## One link set anew -/

section Relink

variable {b : α} (elsewhere : ∀ x, x ≠ b → next' x = next x)

include elsewhere

theorem climb_eq_of_unmet (unmet : ∀ i < steps, climb next i x ≠ some b) :
    climb next' steps x = climb next steps x := by
  induction steps generalizing x with
  | zero => rfl
  | succ steps ih =>
      have other : x ≠ b := fun here => unmet 0 steps.succ_pos (congrArg some here)
      rw [climb_succ, climb_succ, elsewhere x other]
      refine Option.bind_congr fun y linked => ih fun i hi met => ?_
      exact unmet (i + 1) (Nat.succ_lt_succ hi) (by rw [climb_succ, linked]; exact met)

theorem acyclic_relink_iff (acyclic : Acyclic next) :
    Acyclic next' ↔ ∀ y, next' b = some y → ∀ steps, climb next steps y ≠ some b := by
  constructor
  · intro acyclic' y linked steps met
    obtain ⟨first, met, unmet⟩ := exists_first_climb met
    have same := climb_eq_of_unmet elsewhere unmet
    refine acyclic' b (first + 1) first.succ_pos ?_
    rw [climb_succ, linked, Option.bind_some, same, met]
  · intro below x steps pos cycle
    by_cases passes : ∃ i, i < steps ∧ climb next' i x = some b
    · -- the cycle is entered at the changed element instead
      obtain ⟨i, hi, met⟩ := passes
      have toX : climb next' (steps - i) b = some x := by
        rw [← climb_of_met met, Nat.add_sub_cancel' (Nat.le_of_lt hi), cycle]
      have around : climb next' (steps - i + i) b = some b := by rw [climb_of_met toX, met]
      rw [Nat.sub_add_cancel (Nat.le_of_lt hi), ← Nat.succ_pred_eq_of_pos pos, climb_succ]
        at around
      obtain ⟨y, linked, back⟩ := Option.bind_eq_some_iff.mp around
      obtain ⟨first, met, unmet⟩ := exists_first_climb back
      have same := climb_eq_of_unmet (fun x other => (elsewhere x other).symm) unmet
      exact below y linked first (same.trans met)
    · have unmet : ∀ i < steps, climb next' i x ≠ some b := fun i hi met => passes ⟨i, hi, met⟩
      have same := climb_eq_of_unmet (fun x other => (elsewhere x other).symm) unmet
      exact acyclic x steps pos (same.trans cycle)

end Relink

end ObjectInit
