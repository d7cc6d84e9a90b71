/-! # Finite maps in key order

A finite map is the list of its entries, strictly increasing in the key, so two maps that agree on
every key are equal. Each operation is pinned down by one equation on `get?`.
-/

set_option linter.unusedSectionVars false

namespace ObjectInit

universe u v

structure FiniteMap (κ : Type u) (ν : Type v) [Ord κ] where
  entries : List (κ × ν)
  sorted : entries.Pairwise fun a b => compare a.1 b.1 = .lt
deriving DecidableEq

namespace FiniteMap

variable {κ : Type u} {ν : Type v} [Ord κ]

section Entries

theorem compare_self [Std.TransOrd κ] (k : κ) : compare k k = .eq := Std.ReflCmp.compare_self

def find? (k : κ) : List (κ × ν) → Option ν
  | [] => none
  | (k', v) :: rest => if compare k k' = .eq then some v else find? k rest

/-- Puts an entry before the first larger key, in place of an entry of the same key. -/
def place (k : κ) (v : ν) : List (κ × ν) → List (κ × ν)
  | [] => [(k, v)]
  | (k', v') :: rest =>
    match compare k k' with
    | .lt => (k, v) :: (k', v') :: rest
    | .eq => (k, v) :: rest
    | .gt => (k', v') :: place k v rest

theorem mem_place {k : κ} {v : ν} {e : κ × ν} {l : List (κ × ν)} (h : e ∈ place k v l) :
    e = (k, v) ∨ e ∈ l := by
  induction l with
  | nil => simpa [place] using h
  | cons head rest ih =>
    obtain ⟨k', v'⟩ := head
    simp only [place] at h
    split at h <;> simp only [List.mem_cons] at h ⊢
    · exact h
    · exact h.imp id Or.inr
    · exact h.elim (fun he => .inr (.inl he)) (fun hr => (ih hr).imp id Or.inr)

theorem find?_eq_none_of_lt {k : κ} {l : List (κ × ν)}
    (h : ∀ e ∈ l, compare k e.1 = .lt) : find? k l = none := by
  induction l with
  | nil => rfl
  | cons head rest ih =>
    have hk := h head List.mem_cons_self
    simp only [find?, hk, reduceCtorEq, if_false]
    exact ih fun e he => h e (List.mem_cons_of_mem _ he)

variable [Std.TransOrd κ]

theorem place_sorted {k : κ} {v : ν} {l : List (κ × ν)}
    (h : l.Pairwise fun a b => compare a.1 b.1 = .lt) :
    (place k v l).Pairwise fun a b => compare a.1 b.1 = .lt := by
  induction l with
  | nil => simp [place]
  | cons head rest ih =>
    obtain ⟨k', v'⟩ := head
    obtain ⟨hhead, hrest⟩ := List.pairwise_cons.mp h
    simp only [place]
    split
    · rename_i hlt
      refine List.pairwise_cons.mpr ⟨?_, h⟩
      intro e he
      rcases List.mem_cons.mp he with rfl | he
      · exact hlt
      · exact Std.TransCmp.lt_trans hlt (hhead e he)
    · rename_i heq
      refine List.pairwise_cons.mpr ⟨fun e he => ?_, hrest⟩
      exact Std.TransCmp.lt_of_eq_of_lt heq (hhead e he)
    · rename_i hgt
      refine List.pairwise_cons.mpr ⟨fun e he => ?_, ih hrest⟩
      rcases mem_place he with rfl | he
      · exact Std.OrientedCmp.gt_iff_lt.mp hgt
      · exact hhead e he

variable [Std.LawfulEqOrd κ]

theorem find?_place (k : κ) (v : ν) (l : List (κ × ν)) (q : κ) :
    find? q (place k v l) = if compare q k = .eq then some v else find? q l := by
  induction l with
  | nil => rfl
  | cons head rest ih =>
    obtain ⟨k', v'⟩ := head
    simp only [place]
    split
    · rfl
    · rename_i heq
      obtain rfl := Std.LawfulEqCmp.eq_of_compare heq
      simp only [find?]
      split <;> rfl
    · rename_i hgt
      simp only [find?, ih]
      by_cases hq : compare q k' = .eq
      · have hne : compare q k ≠ .eq := by
          intro hqk
          obtain rfl := Std.LawfulEqCmp.eq_of_compare hq
          rw [Std.LawfulEqCmp.eq_of_compare hqk, compare_self] at hgt
          exact absurd hgt (by decide)
        simp [hq, hne]
      · simp [hq]

theorem find?_eq_some_iff {l : List (κ × ν)}
    (h : l.Pairwise fun a b => compare a.1 b.1 = .lt) {k : κ} {v : ν} :
    find? k l = some v ↔ (k, v) ∈ l := by
  induction l with
  | nil => simp [find?]
  | cons head rest ih =>
    obtain ⟨k', v'⟩ := head
    obtain ⟨hhead, hrest⟩ := List.pairwise_cons.mp h
    simp only [find?, List.mem_cons, Prod.mk.injEq]
    by_cases hk : compare k k' = .eq
    · obtain rfl := Std.LawfulEqCmp.eq_of_compare hk
      have hnot : (k, v) ∉ rest := fun hm => by
        have := hhead _ hm
        rw [compare_self] at this
        exact absurd this (by decide)
      simp [hnot, eq_comm]
    · have hne : k ≠ k' := fun he => hk (he ▸ compare_self k)
      simp [hk, hne, ih hrest]

theorem eq_of_find?_eq {l m : List (κ × ν)}
    (hl : l.Pairwise fun a b => compare a.1 b.1 = .lt)
    (hm : m.Pairwise fun a b => compare a.1 b.1 = .lt)
    (h : ∀ k, find? k l = find? k m) : l = m := by
  induction l generalizing m with
  | nil =>
    cases m with
    | nil => rfl
    | cons e rest => simpa [find?, compare_self] using h e.1
  | cons e rest ih =>
    obtain ⟨k, v⟩ := e
    cases m with
    | nil => simpa [find?, compare_self] using h k
    | cons e' rest' =>
      obtain ⟨k', v'⟩ := e'
      obtain ⟨he, hrest⟩ := List.pairwise_cons.mp hl
      obtain ⟨he', hrest'⟩ := List.pairwise_cons.mp hm
      have mem : (k, v) ∈ (k', v') :: rest' :=
        (find?_eq_some_iff hm).mp (h k ▸ (find?_eq_some_iff hl).mpr List.mem_cons_self)
      have mem' : (k', v') ∈ (k, v) :: rest :=
        (find?_eq_some_iff hl).mp ((h k').symm ▸ (find?_eq_some_iff hm).mpr List.mem_cons_self)
      have same : (k, v) = (k', v') := by
        rcases List.mem_cons.mp mem with heq | hin
        · exact heq
        rcases List.mem_cons.mp mem' with heq | hin'
        · exact heq.symm
        have hlt := Std.TransCmp.lt_trans (he' _ hin) (he _ hin')
        rw [compare_self] at hlt
        exact absurd hlt (by decide)
      obtain ⟨rfl, rfl⟩ := Prod.mk.inj same
      congr 1
      refine ih hrest hrest' fun q => ?_
      by_cases hq : compare q k = .eq
      · obtain rfl := Std.LawfulEqCmp.eq_of_compare hq
        rw [find?_eq_none_of_lt he, find?_eq_none_of_lt he']
      · simpa [find?, hq] using h q

theorem find?_filter (p : κ × ν → Bool) {l : List (κ × ν)}
    (h : l.Pairwise fun a b => compare a.1 b.1 = .lt) (k : κ) :
    find? k (l.filter p) = (find? k l).filter fun v => p (k, v) := by
  induction l with
  | nil => rfl
  | cons head rest ih =>
    obtain ⟨k', v'⟩ := head
    obtain ⟨hhead, hrest⟩ := List.pairwise_cons.mp h
    by_cases hk : compare k k' = .eq
    · obtain rfl := Std.LawfulEqCmp.eq_of_compare hk
      by_cases hp : p (k, v') = true
      · simp [hp, find?, Option.filter]
      · simp [hp, find?, Option.filter, ih hrest, find?_eq_none_of_lt hhead]
    · by_cases hp : p (k', v') = true <;> simp [hp, find?, hk, ih hrest]

end Entries

def empty : FiniteMap κ ν := ⟨[], .nil⟩

instance : EmptyCollection (FiniteMap κ ν) := ⟨empty⟩

instance : Inhabited (FiniteMap κ ν) := ⟨empty⟩

def get? (m : FiniteMap κ ν) (k : κ) : Option ν := find? k m.entries

def contains (m : FiniteMap κ ν) (k : κ) : Bool := (m.get? k).isSome

def keys (m : FiniteMap κ ν) : List κ := m.entries.map (·.1)

def size (m : FiniteMap κ ν) : Nat := m.entries.length

def isEmpty (m : FiniteMap κ ν) : Bool := m.entries.isEmpty

def filter (m : FiniteMap κ ν) (p : κ × ν → Bool) : FiniteMap κ ν :=
  ⟨m.entries.filter p, m.sorted.filter p⟩

@[simp] theorem get?_empty (k : κ) : (∅ : FiniteMap κ ν).get? k = none := rfl

/-- An entry combined with what a second map has at its key. There is none where the second map
lacks the key or `f` cannot combine the two values. -/
def meetEntry (f : ν → ν → Option ν) (b : FiniteMap κ ν) (e : κ × ν) : Option (κ × ν) :=
  (b.get? e.1).bind fun theirs => (f e.2 theirs).map fun v => (e.1, v)

theorem fst_eq_of_meetEntry {f : ν → ν → Option ν} {b : FiniteMap κ ν} {e e' : κ × ν}
    (h : meetEntry f b e = some e') : e'.1 = e.1 := by
  simp only [meetEntry, Option.bind_eq_some_iff, Option.map_eq_some_iff] at h
  obtain ⟨_, _, _, _, rfl⟩ := h
  rfl

variable [Std.TransOrd κ]

def insert (m : FiniteMap κ ν) (k : κ) (v : ν) : FiniteMap κ ν :=
  ⟨place k v m.entries, place_sorted m.sorted⟩

def erase (m : FiniteMap κ ν) (k : κ) : FiniteMap κ ν :=
  m.filter fun e => compare k e.1 != .eq

/-- Combines two maps over the keys they share. -/
def meet (f : ν → ν → Option ν) (a b : FiniteMap κ ν) : FiniteMap κ ν where
  entries := a.entries.filterMap (meetEntry f b)
  sorted := by
    refine a.sorted.filterMap _ fun x y hxy x' hx y' hy => ?_
    rw [fst_eq_of_meetEntry hx, fst_eq_of_meetEntry hy]
    exact hxy

variable [Std.LawfulEqOrd κ]

theorem ext_get? {a b : FiniteMap κ ν} (h : ∀ k, a.get? k = b.get? k) : a = b := by
  obtain ⟨l, hl⟩ := a
  obtain ⟨m, hm⟩ := b
  obtain rfl : l = m := eq_of_find?_eq hl hm h
  rfl

theorem get?_eq_some_iff {m : FiniteMap κ ν} {k : κ} {v : ν} :
    m.get? k = some v ↔ (k, v) ∈ m.entries := find?_eq_some_iff m.sorted

theorem get?_insert (m : FiniteMap κ ν) (k : κ) (v : ν) (q : κ) :
    (m.insert k v).get? q = if compare q k = .eq then some v else m.get? q :=
  find?_place k v m.entries q

@[simp] theorem get?_insert_self (m : FiniteMap κ ν) (k : κ) (v : ν) :
    (m.insert k v).get? k = some v := by
  rw [get?_insert, compare_self, if_pos rfl]

theorem get?_insert_of_ne {m : FiniteMap κ ν} {k q : κ} {v : ν} (h : q ≠ k) :
    (m.insert k v).get? q = m.get? q := by
  rw [get?_insert, if_neg fun he => h (Std.LawfulEqCmp.eq_of_compare he)]

theorem get?_filter (m : FiniteMap κ ν) (p : κ × ν → Bool) (k : κ) :
    (m.filter p).get? k = (m.get? k).filter fun v => p (k, v) := find?_filter p m.sorted k

theorem get?_erase (m : FiniteMap κ ν) (k q : κ) :
    (m.erase k).get? q = if compare k q = .eq then none else m.get? q := by
  rw [erase, get?_filter]
  by_cases h : compare k q = .eq <;> cases m.get? q <;> simp [h, Option.filter]

theorem get?_meet (f : ν → ν → Option ν) (a b : FiniteMap κ ν) (k : κ) :
    (meet f a b).get? k = (a.get? k).bind fun mine => (b.get? k).bind (f mine) := by
  apply Option.ext
  intro v
  rw [get?_eq_some_iff]
  simp only [meet, List.mem_filterMap, meetEntry, Option.bind_eq_some_iff, Option.map_eq_some_iff,
    Prod.exists, Prod.mk.injEq, get?_eq_some_iff]
  constructor
  · rintro ⟨k', mine, hmem, theirs, hb, w, hf, rfl, rfl⟩
    exact ⟨mine, hmem, theirs, hb, hf⟩
  · rintro ⟨mine, hmem, theirs, hb, hf⟩
    exact ⟨k, mine, hmem, theirs, hb, v, hf, rfl, rfl⟩

end FiniteMap

end ObjectInit
