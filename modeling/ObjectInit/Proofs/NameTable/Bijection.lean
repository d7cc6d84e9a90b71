import ObjectInit.Data.FiniteMap
import ObjectInit.Proofs.NameTable

/-! # Names and texts

As long as positions fit into a name, the names are the numbers below the size of the table, each of
them the name of one text, and what a table has said it says forever.
-/

namespace ObjectInit.NameTable

variable {t : NameTable} {s : String} {n : Name}

/-! ## No text is stored twice -/

theorem nodup_internAll (distinct : t.texts.toList.eraseDups = t.texts.toList)
    (texts : List String) : (t.internAll texts).texts.toList.Nodup := by
  rw [texts_internAll distinct]
  exact nodup_eraseDups _

theorem mem_texts_internAll (distinct : t.texts.toList.eraseDups = t.texts.toList)
    (texts : List String) :
    s ∈ (t.internAll texts).texts.toList ↔ s ∈ t.texts.toList ∨ s ∈ texts := by
  rw [texts_internAll distinct, List.mem_eraseDups, List.mem_append]

/-! ## Texts and positions -/

theorem exists_find?_iff : (∃ n, t.find? s = some n) ↔ s ∈ t.texts.toList := by
  rw [← Option.isSome_iff_exists, Option.isSome_iff_ne_none, ne_eq, find?_eq_none_iff, not_not]

theorem find?_eq_some_iff_idxOf :
    t.find? s = some n ↔ s ∈ t.texts.toList ∧ n = nameAt (t.texts.toList.idxOf s) := by
  by_cases stored : s ∈ t.texts.toList
  · rw [find?_of_mem stored, Option.some.injEq, eq_comm, and_iff_right stored]
  · rw [find?_eq_none_iff.mpr stored]
    simp [stored]

theorem idxOf_lt_size (stored : s ∈ t.texts.toList) : t.texts.toList.idxOf s < t.size := by
  unfold size
  rw [← Array.length_toList]
  exact List.idxOf_lt_length_iff.mpr stored

theorem nameAt_index {position : Nat} (small : position < UInt32.size) :
    (nameAt position).index = position := Nat.mod_eq_of_lt small

theorem index_lt_size (found : t.find? s = some n) : n.index < t.size := by
  obtain ⟨stored, rfl⟩ := find?_eq_some_iff_idxOf.mp found
  exact Nat.lt_of_le_of_lt (Nat.mod_le _ _) (idxOf_lt_size stored)

theorem find?_eq_some_iff (distinct : t.texts.toList.Nodup) (room : t.size ≤ UInt32.size) :
    t.find? s = some n ↔ t.texts.toList[n.index]? = some s := by
  rw [find?_eq_some_iff_idxOf]
  constructor
  · rintro ⟨stored, rfl⟩
    rw [nameAt_index (Nat.lt_of_lt_of_le (idxOf_lt_size stored) room), List.getElem?_idxOf stored]
  · intro here
    obtain ⟨inside, rfl⟩ := List.getElem?_eq_some_iff.mp here
    have small : n.index < UInt32.size := by
      rw [Array.length_toList] at inside
      exact Nat.lt_of_lt_of_le inside room
    refine ⟨List.getElem_mem inside, ?_⟩
    rw [distinct.idxOf_getElem n.index inside]
    exact congrArg Name.mk (Nat.mod_eq_of_lt small).symm

theorem resolve_eq (t : NameTable) (n : Name) : t.resolve n = t.texts.toList[n.index]?.getD "" := by
  rw [Array.getElem?_toList]
  rfl

theorem resolve_of_find? (distinct : t.texts.toList.Nodup) (room : t.size ≤ UInt32.size)
    (found : t.find? s = some n) : t.resolve n = s := by
  rw [resolve_eq, (find?_eq_some_iff distinct room).mp found, Option.getD_some]

theorem exists_text_iff (distinct : t.texts.toList.Nodup) (room : t.size ≤ UInt32.size)
    (n : Name) : (∃ s, t.find? s = some n) ↔ n.index < t.size := by
  simp only [find?_eq_some_iff distinct room]
  rw [← Option.isSome_iff_exists, isSome_getElem?, Array.length_toList]
  exact Iff.rfl

/-! ## One more text -/

theorem intern_of_find? (found : t.find? s = some n) : t.intern s = (n, t) := by
  unfold intern
  rw [found]

theorem find?_intern_self (t : NameTable) (s : String) :
    (t.intern s).2.find? s = some (t.intern s).1 := by
  rw [find?_eq_some_iff_idxOf, intern_fst, texts_intern]
  by_cases stored : s ∈ t.texts.toList
  · rw [if_pos stored]
    exact ⟨stored, rfl⟩
  · rw [if_neg stored, List.idxOf_append_of_notMem stored, List.idxOf_of_notMem stored]
    simp

theorem find?_intern_of_find? (found : t.find? s = some n) (other : String) :
    (t.intern other).2.find? s = some n := by
  obtain ⟨stored, hn⟩ := find?_eq_some_iff_idxOf.mp found
  rw [find?_eq_some_iff_idxOf, texts_intern]
  split
  · exact ⟨stored, hn⟩
  · rw [List.idxOf_append_of_mem stored]
    exact ⟨List.mem_append_left _ stored, hn⟩

theorem find?_intern (t : NameTable) (s s' : String) :
    (t.intern s).2.find? s' = if s' = s then some (t.intern s).1 else t.find? s' := by
  by_cases same : s' = s
  · rw [if_pos same, same, find?_intern_self]
  · rw [if_neg same]
    cases found : t.find? s' with
    | some n => exact find?_intern_of_find? found s
    | none =>
        rw [find?_eq_none_iff] at found ⊢
        rw [texts_intern]
        split
        · exact found
        · simp [found, same]

theorem resolve_intern (inside : n.index < t.size) (other : String) :
    (t.intern other).2.resolve n = t.resolve n := by
  rw [resolve_eq, resolve_eq, texts_intern]
  split
  · rfl
  · rw [List.getElem?_append_left]
    rwa [Array.length_toList]

/-! ## A second book -/

/-- A table with a book beside it that has the name of every text, so that none is searched for. -/
structure Indexed where
  names : FiniteMap String Name
  texts : Array String

namespace Indexed

def withEmptyName : Indexed := ⟨(∅ : FiniteMap String Name).insert "" Name.none, #[""]⟩

def bare : Indexed := ⟨∅, #[]⟩

def intern (b : Indexed) (s : String) : Name × Indexed :=
  match b.names.get? s with
  | some n => (n, b)
  | none => (nameAt b.texts.size, ⟨b.names.insert s (nameAt b.texts.size), b.texts.push s⟩)

def internAll (b : Indexed) (texts : List String) : Indexed :=
  texts.foldl (fun b s => (b.intern s).2) b

structure Agrees (b : Indexed) (t : NameTable) : Prop where
  texts : b.texts = t.texts
  names (s : String) : b.names.get? s = t.find? s

theorem agrees_withEmptyName : withEmptyName.Agrees .withEmptyName where
  texts := rfl
  names s := by
    unfold withEmptyName
    by_cases empty : s = ""
    · rw [empty, FiniteMap.get?_insert_self]
      decide +kernel
    · have missing : NameTable.withEmptyName.find? s = none := by
        rw [find?_eq_none_iff]
        simpa [NameTable.withEmptyName] using empty
      rw [FiniteMap.get?_insert_of_ne empty, missing]
      rfl

theorem agrees_bare : bare.Agrees .bare where
  texts := rfl
  names _ := (find?_eq_none_iff.mpr List.not_mem_nil).symm

variable {b : Indexed}

theorem Agrees.intern (agrees : b.Agrees t) (s : String) :
    (b.intern s).1 = (t.intern s).1 ∧ (b.intern s).2.Agrees (t.intern s).2 := by
  cases found : t.find? s with
  | some n =>
      have kept : b.intern s = (n, b) := by
        unfold Indexed.intern
        rw [agrees.names, found]
      rw [kept, intern_of_find? found]
      exact ⟨rfl, agrees⟩
  | none =>
      have fresh : t.intern s = (nameAt t.texts.size, ⟨t.texts.push s⟩) := by
        unfold NameTable.intern
        rw [found]
      have written : b.intern s =
          (nameAt t.texts.size, ⟨b.names.insert s (nameAt t.texts.size), t.texts.push s⟩) := by
        unfold Indexed.intern
        rw [agrees.names, found, agrees.texts]
      refine ⟨by rw [written, fresh], by rw [written, fresh], fun s' => ?_⟩
      rw [find?_intern, written, fresh]
      by_cases same : s' = s
      · rw [if_pos same, same, FiniteMap.get?_insert_self]
      · rw [if_neg same, FiniteMap.get?_insert_of_ne same, agrees.names]

theorem Agrees.internAll (agrees : b.Agrees t) (texts : List String) :
    (b.internAll texts).Agrees (t.internAll texts) := by
  induction texts generalizing b t with
  | nil => exact agrees
  | cons s texts ih => exact ih (agrees.intern s).2

end Indexed

/-! ## Every table -/

/-- However many texts a table is given, as long as positions fit into names: it finds exactly the
texts it was given, besides the empty one if it is made with it, and reads each of them back from
its name; different texts have different names, and the names are the numbers below its size. A text
that is found is given nothing new. Any other text gets the name that it is found by from then on,
and takes neither the name nor the text from any that was there. Two books written side by side say
the same. -/
theorem names_one_to_one_and_permanent {start : NameTable} {books : Indexed}
    (made : start = withEmptyName ∧ books = .withEmptyName ∨ start = bare ∧ books = .bare)
    (texts : List String) (room : (start.internAll texts).size ≤ UInt32.size) :
    let t := start.internAll texts
    (books.internAll texts).Agrees t ∧
      (∀ s, (∃ n, t.find? s = some n) ↔ s ∈ texts ∨ start = withEmptyName ∧ s = "") ∧
      (∀ s n, t.find? s = some n → t.resolve n = s) ∧
      (∀ s s' n, t.find? s = some n → t.find? s' = some n → s = s') ∧
      (∀ n, (∃ s, t.find? s = some n) ↔ n.index < t.size) ∧
      (∀ s n, t.find? s = some n → t.intern s = (n, t)) ∧
      (∀ s, (t.intern s).2.find? s = some (t.intern s).1) ∧
      ∀ s n other, t.find? s = some n →
        (t.intern other).2.find? s = some n ∧ (t.intern other).2.resolve n = t.resolve n := by
  intro t
  have agreesStart : books.Agrees start := by
    obtain ⟨rfl, rfl⟩ | ⟨rfl, rfl⟩ := made
    · exact Indexed.agrees_withEmptyName
    · exact Indexed.agrees_bare
  have distinctStart : start.texts.toList.eraseDups = start.texts.toList := by
    obtain ⟨rfl, -⟩ | ⟨rfl, -⟩ := made <;> rfl
  have emptyText (s : String) : s ∈ start.texts.toList ↔ start = withEmptyName ∧ s = "" := by
    obtain ⟨rfl, -⟩ | ⟨rfl, -⟩ := made <;> simp [withEmptyName, bare]
  have distinct : t.texts.toList.Nodup := nodup_internAll distinctStart texts
  have read {s : String} {n : Name} (found : t.find? s = some n) : t.resolve n = s :=
    resolve_of_find? distinct room found
  refine ⟨agreesStart.internAll texts, fun s => ?_, fun s n => read,
    fun s s' n found found' => ?_, exists_text_iff distinct room, fun s n => intern_of_find?,
    find?_intern_self t, fun s n other found => ⟨find?_intern_of_find? found other,
      resolve_intern (index_lt_size found) other⟩⟩
  · rw [exists_find?_iff, mem_texts_internAll distinctStart, emptyText, or_comm]
  · rw [← read found, ← read found']

/-- A table made without texts is given two of them again and again, the empty one second: each
keeps its name, also when a third text comes. -/
theorem names_one_to_one_and_permanent_of_repeated_texts :
    let texts := ["A", "", "A", "", "A"]
    let t := bare.internAll texts
    t.size ≤ UInt32.size ∧ (Indexed.bare.internAll texts).names.get? "" = some ⟨1⟩ ∧
      t.resolve ⟨1⟩ = "" ∧ t.intern "" = (⟨1⟩, t) ∧ (∃ s, t.find? s = some ⟨0⟩) ∧
      ¬ (∃ s, t.find? s = some ⟨2⟩) ∧ (t.intern "B").2.find? "" = some ⟨1⟩ ∧
      (t.intern "B").2.resolve ⟨1⟩ = t.resolve ⟨1⟩ := by
  intro texts t
  have room : t.size ≤ UInt32.size := by decide +kernel
  have size : t.size = 2 := by decide +kernel
  have found : t.find? "" = some ⟨1⟩ := by decide +kernel
  obtain ⟨agrees, -, read, -, names, old, -, permanent⟩ :=
    names_one_to_one_and_permanent (.inr ⟨rfl, rfl⟩) texts room
  obtain ⟨found', read'⟩ := permanent "" ⟨1⟩ "B" found
  refine ⟨room, by rw [agrees.names, found], read "" ⟨1⟩ found, old "" ⟨1⟩ found, ?_, ?_, found',
    read'⟩
  · rw [names, size]
    decide
  · rw [names, size]
    decide

end ObjectInit.NameTable
