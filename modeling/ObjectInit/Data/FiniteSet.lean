import ObjectInit.Data.FiniteMap

/-! # Finite sets in increasing order

A finite set is a finite map that says nothing about its keys. Sets with the same members are
equal (`ext_mem`).
-/

set_option linter.unusedSectionVars false

namespace ObjectInit

universe u

/-- A finite set, kept in increasing order. -/
abbrev FiniteSet (κ : Type u) [Ord κ] := FiniteMap κ Unit

namespace FiniteSet

variable {κ : Type u} [Ord κ]

def toList (s : FiniteSet κ) : List κ := FiniteMap.keys s

def subset (s t : FiniteSet κ) : Bool := (toList s).all (FiniteMap.contains t)

variable [Std.TransOrd κ]

def add (s : FiniteSet κ) (k : κ) : FiniteSet κ := FiniteMap.insert s k ()

def addAll (s : FiniteSet κ) (ks : List κ) : FiniteSet κ := ks.foldl add s

def inter (s t : FiniteSet κ) : FiniteSet κ := FiniteMap.meet (fun _ _ => some ()) s t

variable [Std.LawfulEqOrd κ]

theorem ext_mem {s t : FiniteSet κ} (h : ∀ k, s.contains k = t.contains k) : s = t := by
  refine FiniteMap.ext_get? fun k => ?_
  have hk := h k
  simp only [FiniteMap.contains] at hk
  cases hs : s.get? k <;> cases ht : t.get? k <;> simp_all

@[simp] theorem contains_empty (k : κ) : (∅ : FiniteSet κ).contains k = false := rfl

theorem contains_add (s : FiniteSet κ) (k q : κ) :
    (add s k).contains q = true ↔ q = k ∨ s.contains q = true := by
  simp only [add, FiniteMap.contains, FiniteMap.get?_insert]
  by_cases h : compare q k = .eq
  · simp [Std.LawfulEqCmp.eq_of_compare h]
  · have hne : q ≠ k := fun he => h (he ▸ FiniteMap.compare_self q)
    simp [h, hne]

theorem contains_addAll (s : FiniteSet κ) (ks : List κ) (q : κ) :
    (addAll s ks).contains q = true ↔ q ∈ ks ∨ s.contains q = true := by
  induction ks generalizing s with
  | nil => simp [addAll]
  | cons k rest ih =>
    simp only [addAll, List.foldl_cons, List.mem_cons] at ih ⊢
    rw [ih (add s k), contains_add]
    constructor
    · rintro (h | h | h)
      · exact .inl (.inr h)
      · exact .inl (.inl h)
      · exact .inr h
    · rintro ((h | h) | h)
      · exact .inr (.inl h)
      · exact .inl h
      · exact .inr (.inr h)

theorem contains_inter (s t : FiniteSet κ) (q : κ) :
    (inter s t).contains q = (s.contains q && t.contains q) := by
  simp only [inter, FiniteMap.contains, FiniteMap.get?_meet]
  cases s.get? q <;> cases t.get? q <;> rfl

theorem mem_toList {s : FiniteSet κ} {k : κ} : k ∈ toList s ↔ s.contains k = true := by
  simp only [toList, FiniteMap.keys, List.mem_map, Prod.exists, FiniteMap.contains,
    Option.isSome_iff_exists, FiniteMap.get?_eq_some_iff]
  constructor
  · rintro ⟨k', v, hm, rfl⟩
    exact ⟨v, hm⟩
  · rintro ⟨v, hm⟩
    exact ⟨k, v, hm, rfl⟩

theorem subset_iff {s t : FiniteSet κ} :
    subset s t = true ↔ ∀ k, s.contains k = true → t.contains k = true := by
  simp only [subset, List.all_eq_true, mem_toList]

end FiniteSet

end ObjectInit
