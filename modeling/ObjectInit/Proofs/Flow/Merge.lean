import Mathlib.Order.Lattice
import ObjectInit.Proofs.Flow.Answers
import ObjectInit.Proofs.Flow.ValueLaws

/-! # Stores as a semilattice

Over values with a lawful join, merging is the join of a semilattice on stores. With lawful
precision its order is the one that the convergence test decides.
-/

namespace ObjectInit.Store

open AbstractValue (joinKnown)

universe u

variable {V : Type u} [DecidableEq V] [AbstractValue V]

@[simp] theorem isInitialized_merge (a b : Store V) (f : FieldId) :
    (a.merge b).isInitialized f = (a.isInitialized f && b.isInitialized f) :=
  FiniteSet.contains_inter a.initialized b.initialized f

@[simp] theorem value?_merge (a b : Store V) (e : FlowExpr) :
    (a.merge b).value? e = joinKnown (a.value? e) (b.value? e) :=
  FiniteMap.get?_meet AbstractValue.join? a.values b.values e

def mergeFrom (s : Store V) (others : List (Store V)) : Store V := others.foldl merge s

/-- The merge of all stores of a list; an empty list has none. -/
def mergeAll? : List (Store V) → Option (Store V)
  | [] => none
  | s :: others => some (s.mergeFrom others)

theorem mergeAll?_eq_none_iff {stores : List (Store V)} :
    mergeAll? stores = none ↔ stores = [] := by
  cases stores <;> simp [mergeAll?]

theorem isInitialized_mergeFrom (s : Store V) (others : List (Store V)) (f : FieldId) :
    (s.mergeFrom others).isInitialized f = true ↔
      s.isInitialized f = true ∧ ∀ other ∈ others, other.isInitialized f = true := by
  induction others generalizing s with
  | nil => simp [mergeFrom]
  | cons other others ih =>
      have hstep : s.mergeFrom (other :: others) = (s.merge other).mergeFrom others := rfl
      rw [hstep, ih (s.merge other)]
      simp [and_assoc]

theorem isInitialized_of_mergeAll? {stores : List (Store V)} {s : Store V}
    (h : mergeAll? stores = some s) (f : FieldId) :
    s.isInitialized f = true ↔ ∀ store ∈ stores, store.isInitialized f = true := by
  cases stores with
  | nil => simp [mergeAll?] at h
  | cons first others =>
      have hs : first.mergeFrom others = s := Option.some.inj h
      rw [← hs, isInitialized_mergeFrom, List.forall_mem_cons]

instance : Max (Store V) := ⟨merge⟩

theorem mergeFrom_map {g : Store V → Store V}
    (hg : ∀ a b : Store V, g (a.merge b) = (g a).merge (g b)) (s : Store V)
    (others : List (Store V)) : (g s).mergeFrom (others.map g) = g (s.mergeFrom others) := by
  induction others generalizing s with
  | nil => rfl
  | cons other others ih =>
      have hstep : (g s).mergeFrom ((other :: others).map g) =
          ((g s).merge (g other)).mergeFrom (others.map g) := rfl
      rw [hstep, ← hg, ih (s.merge other)]
      rfl

theorem mergeAll?_map {g : Store V → Store V}
    (hg : ∀ a b : Store V, g (a.merge b) = (g a).merge (g b)) (stores : List (Store V)) :
    mergeAll? (stores.map g) = (mergeAll? stores).map g := by
  cases stores with
  | nil => rfl
  | cons s others => exact congrArg some (mergeFrom_map hg s others)

section LawfulJoin

variable [LawfulJoin V]

/-! ## The laws of merging -/

theorem merge_self (a : Store V) : a.merge a = a := by
  apply ext_answers
  · intro f
    simp
  · intro e
    rw [value?_merge, AbstractValue.joinKnown_self]

theorem merge_comm (a b : Store V) : a.merge b = b.merge a := by
  apply ext_answers
  · intro f
    simp [Bool.and_comm]
  · intro e
    rw [value?_merge, value?_merge, AbstractValue.joinKnown_comm]

theorem merge_assoc (a b c : Store V) : (a.merge b).merge c = a.merge (b.merge c) := by
  apply ext_answers
  · intro f
    simp [Bool.and_assoc]
  · intro e
    simp only [value?_merge, AbstractValue.joinKnown_assoc]

/-- Merging as a join. Below stands the store that says more. -/
instance : SemilatticeSup (Store V) := SemilatticeSup.mk' merge_comm merge_assoc merge_self

theorem le_iff_merge_eq {a b : Store V} : a ≤ b ↔ a.merge b = b := Iff.rfl

theorem le_iff_answers {a b : Store V} :
    a ≤ b ↔ (∀ f, b.isInitialized f = true → a.isInitialized f = true) ∧
      ∀ e, joinKnown (a.value? e) (b.value? e) = b.value? e := by
  rw [le_iff_merge_eq]
  constructor
  · intro h
    refine ⟨fun f hf => ?_, fun e => ?_⟩
    · rw [← h, isInitialized_merge, Bool.and_eq_true] at hf
      exact hf.1
    · rw [← value?_merge, h]
  · intro ⟨fields, values⟩
    apply ext_answers
    · intro f
      rw [isInitialized_merge]
      cases hf : b.isInitialized f with
      | false => rw [Bool.and_false]
      | true => rw [fields f hf, Bool.and_true]
    · intro e
      rw [value?_merge, values e]

/-! ## Merging lists of stores -/

theorem mergeFrom_le_iff {s c : Store V} {others : List (Store V)} :
    s.mergeFrom others ≤ c ↔ s ≤ c ∧ ∀ other ∈ others, other ≤ c := by
  induction others generalizing s with
  | nil => simp [mergeFrom]
  | cons other others ih =>
      have hstep : s.mergeFrom (other :: others) = (s ⊔ other).mergeFrom others := rfl
      rw [hstep, ih, sup_le_iff, List.forall_mem_cons, and_assoc]

theorem merge_mergeFrom (a s : Store V) (others : List (Store V)) :
    (a.merge s).mergeFrom others = a.merge (s.mergeFrom others) := by
  induction others generalizing s with
  | nil => rfl
  | cons other others ih =>
      have hstep : (a.merge s).mergeFrom (other :: others) =
          ((a.merge s).merge other).mergeFrom others := rfl
      rw [hstep, merge_assoc, ih]
      rfl

theorem mergeAll?_cons (s : Store V) (stores : List (Store V)) :
    mergeAll? (s :: stores) = Option.merge merge (some s) (mergeAll? stores) := by
  cases stores with
  | nil => rfl
  | cons other others => exact congrArg some (merge_mergeFrom s other others)

theorem mergeAll?_append (stores more : List (Store V)) :
    mergeAll? (stores ++ more) = Option.merge merge (mergeAll? stores) (mergeAll? more) := by
  induction stores with
  | nil => simp [mergeAll?]
  | cons s stores ih =>
      rw [List.cons_append, mergeAll?_cons, mergeAll?_cons, ih]
      cases mergeAll? stores with
      | none => simp
      | some rest =>
          cases mergeAll? more with
          | none => simp
          | some rest' => simp [merge_assoc]

theorem mergeAll?_flatMap {ι : Type u} {is : List ι} {stores : ι → List (Store V)}
    {merged : ι → Store V} (h : ∀ i ∈ is, mergeAll? (stores i) = some (merged i)) :
    mergeAll? (is.flatMap stores) = mergeAll? (is.map merged) := by
  induction is with
  | nil => rfl
  | cons i is ih =>
      have hhead := h i List.mem_cons_self
      have hrest := ih fun j hj => h j (List.mem_cons_of_mem i hj)
      rw [List.flatMap_cons, List.map_cons, mergeAll?_append, mergeAll?_cons, hhead, hrest]

theorem le_iff_of_mergeAll? {stores : List (Store V)} {s : Store V}
    (merged : mergeAll? stores = some s) (c : Store V) :
    s ≤ c ↔ ∀ store ∈ stores, store ≤ c := by
  cases stores with
  | nil => cases merged
  | cons first others =>
      obtain rfl : first.mergeFrom others = s := Option.some.inj merged
      rw [mergeFrom_le_iff, List.forall_mem_cons]

/-- Neither the order of the stores nor their number plays a part in a merge. -/
theorem mergeAll?_congr {stores stores' : List (Store V)}
    (same : ∀ s, s ∈ stores ↔ s ∈ stores') : mergeAll? stores = mergeAll? stores' := by
  cases stores with
  | nil =>
      cases stores' with
      | nil => rfl
      | cons s' _ => cases (same s').mpr List.mem_cons_self
  | cons s others =>
      cases stores' with
      | nil => cases (same s).mp List.mem_cons_self
      | cons s' others' =>
          have merged : mergeAll? (s :: others) = some (s.mergeFrom others) := rfl
          have merged' : mergeAll? (s' :: others') = some (s'.mergeFrom others') := rfl
          rw [merged, merged', Option.some.injEq]
          -- both are the least store above the same stores
          refine eq_of_forall_ge_iff fun c => ?_
          simp only [le_iff_of_mergeAll? merged, le_iff_of_mergeAll? merged', same]

end LawfulJoin

/-! ## The convergence test -/

/-- The convergence test decides the order of merging. -/
theorem atLeastAsPrecise_iff [LawfulPrecision V] {a b : Store V} :
    a.atLeastAsPrecise b = true ↔ a ≤ b := by
  have fields : b.initialized.subset a.initialized = true ↔
      ∀ f, b.isInitialized f = true → a.isInitialized f = true := FiniteSet.subset_iff
  have values : a.values.atLeastAsPrecise b.values = true ↔
      ∀ e, joinKnown (a.value? e) (b.value? e) = b.value? e := by
    unfold ValueStore.atLeastAsPrecise value?
    simp only [List.all_eq_true, Prod.forall, ← FiniteMap.get?_eq_some_iff, Option.any_eq_true,
      LawfulPrecision.atLeastAsPrecise_iff, AbstractValue.joinKnown_eq_right_iff]
  rw [le_iff_answers, atLeastAsPrecise, Bool.and_eq_true, fields, values]

/-- Stores with merging are a semilattice whose order is what the convergence test decides: the
test holds of two stores exactly if merging adds nothing to the second, it is a partial order, and
the merge of two stores is the least store that both are at least as precise as. -/
theorem merge_semilattice_by_precision [LawfulPrecision V] (a b c : Store V) :
    (a.merge a = a ∧ a.merge b = b.merge a ∧ (a.merge b).merge c = a.merge (b.merge c)) ∧
      (a.atLeastAsPrecise b = true ↔ a.merge b = b) ∧
      (a.atLeastAsPrecise a = true ∧
        (a.atLeastAsPrecise b = true → b.atLeastAsPrecise a = true → a = b) ∧
        (a.atLeastAsPrecise b = true → b.atLeastAsPrecise c = true →
          a.atLeastAsPrecise c = true)) ∧
      (a.atLeastAsPrecise (a.merge b) = true ∧ b.atLeastAsPrecise (a.merge b) = true) ∧
      (a.atLeastAsPrecise c = true → b.atLeastAsPrecise c = true →
        (a.merge b).atLeastAsPrecise c = true) := by
  simp only [atLeastAsPrecise_iff]
  exact ⟨⟨merge_self a, merge_comm a b, merge_assoc a b c⟩, le_iff_merge_eq,
    ⟨le_refl a, le_antisymm, le_trans⟩, ⟨le_sup_left, le_sup_right⟩, sup_le⟩

/-- References of different nullness join, a tag and a reference do not: of two stores with both,
what remains is exactly a third that both are at least as precise as. -/
theorem merge_semilattice_by_precision_of_mixed_values :
    let x : FlowExpr := .field .self ⟨⟨1⟩, ⟨1⟩⟩
    let y : FlowExpr := .localVar ⟨0⟩
    let a : Store TrackedValue := ((∅ : Store TrackedValue).assign x
      (.reference .nonNull (some .initialized))).assign y (.tag 1)
    let b : Store TrackedValue := ((∅ : Store TrackedValue).assign x
      (.reference .nullable (some .bottom))).assign y (.reference .nonNull none)
    let c : Store TrackedValue := (∅ : Store TrackedValue).assign x (.reference .nullable none)
    LawfulPrecision TrackedValue ∧ a.atLeastAsPrecise b = false ∧ a.merge b ≠ b ∧
      a.atLeastAsPrecise c = true ∧ b.atLeastAsPrecise c = true ∧
      (a.merge b).atLeastAsPrecise c = true ∧ c.atLeastAsPrecise (a.merge b) = true ∧
      a.merge b = c := by
  intro x y a b c
  have hac : a.atLeastAsPrecise c = true := by decide
  have hbc : b.atLeastAsPrecise c = true := by decide
  have hca : c.atLeastAsPrecise (a.merge b) = true := by decide
  have hab : a.atLeastAsPrecise b = false := by decide
  obtain ⟨-, htest, -, -, hleast⟩ := merge_semilattice_by_precision a b c
  obtain ⟨-, -, ⟨-, hantisymm, -⟩, -⟩ := merge_semilattice_by_precision (a.merge b) c c
  have hne : a.merge b ≠ b := by
    intro same
    rw [htest.mpr same] at hab
    cases hab
  exact ⟨inferInstance, hab, hne, hac, hbc, hleast hac hbc, hca, hantisymm (hleast hac hbc) hca⟩

end ObjectInit.Store
