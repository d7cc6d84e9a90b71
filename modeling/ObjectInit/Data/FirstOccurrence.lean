import Mathlib.Data.List.Induction
import Mathlib.Data.List.Nodup

/-! # First occurrences

`List.eraseDups` keeps each entry where it first occurs, and it does not matter whether one selects
before or after.
-/

namespace ObjectInit

universe u

variable {α : Type u} [DecidableEq α]

theorem eraseDups_concat (l : List α) (a : α) :
    (l ++ [a]).eraseDups = if a ∈ l then l.eraseDups else l.eraseDups ++ [a] := by
  rw [List.eraseDups_append]
  by_cases old : a ∈ l <;> simp [List.removeAll, List.eraseDups_cons, old]

theorem eraseDups_filter (p : α → Bool) (l : List α) :
    (l.filter p).eraseDups = l.eraseDups.filter p := by
  induction l using List.reverseRecOn with
  | nil => rfl
  | append_singleton l a ih =>
      rw [List.filter_append, eraseDups_concat]
      by_cases selected : p a = true
      · rw [List.filter_cons_of_pos selected, List.filter_nil, eraseDups_concat]
        by_cases old : a ∈ l <;> simp [List.mem_filter, selected, old, ih]
      · rw [List.filter_cons_of_neg selected, List.filter_nil, List.append_nil, ih]
        by_cases old : a ∈ l <;> simp [selected, old]

theorem head?_eraseDups (l : List α) : l.eraseDups.head? = l.head? := by
  cases l with
  | nil => rfl
  | cons a l => rw [List.eraseDups_cons, List.head?_cons, List.head?_cons]

theorem eraseDups_eq_nil_iff {l : List α} : l.eraseDups = [] ↔ l = [] := by
  simp only [List.eq_nil_iff_forall_not_mem, List.mem_eraseDups]

/-- At most one entry is kept exactly if all entries are the first one. -/
theorem length_eraseDups_le_one_iff (l : List α) :
    l.eraseDups.length ≤ 1 ↔ ∀ a ∈ l, l.head? = some a := by
  cases l with
  | nil => simp
  | cons first rest =>
      rw [List.eraseDups_cons, List.length_cons, Nat.succ_le_succ_iff, Nat.le_zero,
        List.length_eq_zero_iff, eraseDups_eq_nil_iff, List.filter_eq_nil_iff]
      simp only [List.head?_cons, Option.some.injEq, List.forall_mem_cons, true_and,
        Bool.not_eq_true', beq_eq_false_iff_ne, ne_eq, not_not]
      exact forall₂_congr fun b _ => eq_comm

theorem nodup_eraseDups (l : List α) : l.eraseDups.Nodup := by
  induction l using List.reverseRecOn with
  | nil => exact .nil
  | append_singleton l a ih =>
      rw [eraseDups_concat]
      split
      · exact ih
      · rename_i new
        refine List.nodup_append.mpr ⟨ih, List.nodup_singleton a, ?_⟩
        intro b old b' last
        rw [List.mem_singleton.mp last]
        rintro rfl
        exact new (List.mem_eraseDups.mp old)

end ObjectInit
