import ObjectInit.Message
import ObjectInit.Proofs.Text.Pieces
import ObjectInit.Text.Split

/-! # Reading a template

Holes do not overlap, so a template is read into its pieces from left to right and all holes can be
filled at once: each with its argument, while everything else is copied.
-/

namespace ObjectInit.Template

/-! ## Holes -/

def holeEnd (i : Nat) : List Char := Nat.toDigits 10 i ++ ['\x7d']

theorem hole_eq (i : Nat) : hole i = '\x7b' :: holeEnd i := rfl

theorem hole_ne_nil (i : Nat) : hole i ≠ [] := List.cons_ne_nil _ _

theorem notMem_digits {c : Char} (other : c.isDigit = false) (i : Nat) :
    c ∉ Nat.toDigits 10 i := by
  intro h
  rw [Nat.isDigit_of_mem_toDigits (by decide) (by decide) h] at other
  cases other

theorem brace_notMem_holeEnd (i : Nat) : '\x7b' ∉ holeEnd i := by
  unfold holeEnd
  rw [List.mem_append, not_or]
  exact ⟨notMem_digits (by decide) i, by decide⟩

theorem brace_mem_hole (i : Nat) : '\x7b' ∈ hole i := List.mem_cons_self

theorem close_mem_of_suffix {i : Nat} {r : List Char} (ends : r <:+ hole i) (nonempty : r ≠ []) :
    '\x7d' ∈ r := by
  have shape : hole i = ('\x7b' :: Nat.toDigits 10 i) ++ ['\x7d'] := rfl
  rw [shape, List.suffix_concat_iff] at ends
  obtain rfl | ⟨t, rfl, -⟩ := ends
  · exact absurd rfl nonempty
  · exact List.mem_append_right t List.mem_cons_self

theorem close_notMem_of_prefix {i : Nat} {l : List Char} (begins : l <+: hole i)
    (unfinished : l ≠ hole i) : '\x7d' ∉ l := by
  have shape : hole i = ('\x7b' :: Nat.toDigits 10 i) ++ ['\x7d'] := rfl
  rw [shape] at begins unfinished
  rcases List.prefix_concat_iff.mp begins with whole | inner
  · exact absurd whole unfinished
  · intro h
    rcases List.mem_cons.mp (inner.subset h) with hbrace | hdigit
    · exact absurd hbrace (by decide)
    · exact notMem_digits (by decide) i hdigit

/-- At one place there is one hole only. -/
theorem eq_of_both_begin {i k : Nat} {t : List Char} (both : hole k <+: hole i ++ t) : k = i := by
  obtain ⟨t', h⟩ := both
  rw [hole_eq, hole_eq, List.cons_append, List.cons_append, List.cons.injEq] at h
  have close (m : Nat) : '\x7d' ∉ Nat.toDigits 10 m := notMem_digits (by decide) m
  have split (m : Nat) (rest : List Char) :
      Text.splitAtFirst '\x7d' (holeEnd m ++ rest) = some (Nat.toDigits 10 m, rest) := by
    rw [Text.splitAtFirst_eq_some_iff]
    exact ⟨close m, List.append_assoc _ _ _⟩
  have hdigits : Nat.toDigits 10 k = Nat.toDigits 10 i := by
    have hsplit := split k t'
    rw [h.2, split i t, Option.some.injEq, Prod.mk.injEq] at hsplit
    exact hsplit.1.symm
  have hvalue := congrArg (Nat.ofDigitChars 10 · 0) hdigits
  simpa only [Nat.ofDigitChars_ten_toDigits] using hvalue

theorem brace_notMem_of_opened {k : Nat} {l d : List Char} (split : hole k = l ++ d)
    (opened : l ≠ []) : '\x7b' ∉ d := by
  cases l with
  | nil => exact absurd rfl opened
  | cons c l =>
      rw [hole_eq, List.cons_append, List.cons.injEq] at split
      intro h
      refine brace_notMem_holeEnd k ?_
      rw [split.2]
      exact List.mem_append_right l h

theorem brace_mem_of_begins {k : Nat} {v t : List Char} (begins : hole k <+: v ++ t)
    (nonempty : v ≠ []) : '\x7b' ∈ v := by
  cases v with
  | nil => exact absurd rfl nonempty
  | cons c v =>
      rw [hole_eq, List.cons_append, List.cons_prefix_cons] at begins
      rw [begins.1]
      exact List.mem_cons_self

theorem not_hole_prefix_of_suffix {i k : Nat} {u v : List Char} (split : hole i = u ++ v)
    (other : i ≠ k) (nonempty : v ≠ []) (t : List Char) : ¬ hole k <+: v ++ t := by
  intro begins
  by_cases whole : u = []
  · rw [whole, List.nil_append] at split
    rw [← split] at begins
    exact other (eq_of_both_begin begins).symm
  · exact brace_notMem_of_opened split whole (brace_mem_of_begins begins nonempty)

theorem not_prefix_hole_of_opened {i k : Nat} {l d t : List Char} (split : hole k = l ++ d)
    (opened : l ≠ []) (unfinished : d ≠ []) : ¬ d <+: hole i ++ t := by
  intro goesOn
  cases d with
  | nil => exact unfinished rfl
  | cons c d =>
      rw [hole_eq, List.cons_append, List.cons_prefix_cons] at goesOn
      refine brace_notMem_of_opened split opened ?_
      rw [goesOn.1]
      exact List.mem_cons_self

/-! ## Pieces -/

/-- A piece of a template: a character, or the hole for an argument. -/
inductive Piece
  | char (c : Char)
  | arg (i : Nat)
deriving DecidableEq

namespace Piece

def source : Piece → List Char
  | char c => [c]
  | arg i => hole i

def value (args : List String) : Piece → List Char
  | char c => [c]
  | arg i => (args[i]?.getD "").toList

/-- A piece when the first `k` arguments are filled in. -/
def filled (args : List String) (k : Nat) : Piece → List Char
  | char c => [c]
  | arg i => if i < k then value args (arg i) else hole i

end Piece

/-- The number below `n` whose hole begins a text. -/
def holeAt? (n : Nat) (text : List Char) : Option Nat :=
  (List.range n).find? fun i => (hole i).isPrefixOf text

/-- The pieces of the rest of a template whose first `skip` characters belong to a hole that has
been read. -/
def piecesFrom (n : Nat) : Nat → List Char → List Piece
  | _, [] => []
  | skip + 1, _ :: rest => piecesFrom n skip rest
  | 0, c :: rest =>
    match holeAt? n (c :: rest) with
    | some i => .arg i :: piecesFrom n ((hole i).length - 1) rest
    | none => .char c :: piecesFrom n 0 rest

def pieces (n : Nat) (text : List Char) : List Piece := piecesFrom n 0 text

/-- Fills all holes of a text at once: each of them is replaced by its argument, and all other text
is copied. -/
def fillAtOnce (text : String) (args : List String) : String :=
  String.ofList ((pieces args.length text.toList).flatMap (·.value args))

/-! ## The pieces of a text -/

variable {n : Nat} {text s t : List Char}

theorem holeAt?_eq_none_iff : holeAt? n text = none ↔ ∀ i < n, ¬ hole i <+: text := by
  unfold holeAt?
  rw [List.find?_eq_none]
  simp only [List.mem_range, List.isPrefixOf_iff_prefix]

theorem holeAt?_hole_append {i : Nat} (small : i < n) (t : List Char) :
    holeAt? n (hole i ++ t) = some i := by
  cases found : holeAt? n (hole i ++ t) with
  | none => exact absurd (List.prefix_append _ _) (holeAt?_eq_none_iff.mp found i small)
  | some k =>
      have begins := List.find?_some found
      rw [List.isPrefixOf_iff_prefix] at begins
      rw [eq_of_both_begin begins]

theorem piecesFrom_skip (n skip : Nat) (s : List Char) :
    piecesFrom n skip s = pieces n (s.drop skip) := by
  unfold pieces
  induction skip generalizing s with
  | zero => rfl
  | succ skip ih =>
      cases s with
      | nil => simp [piecesFrom]
      | cons c rest => simpa [piecesFrom] using ih rest

@[simp] theorem pieces_nil (n : Nat) : pieces n [] = [] := rfl

theorem pieces_hole_append {i : Nat} (small : i < n) (t : List Char) :
    pieces n (hole i ++ t) = .arg i :: pieces n t := by
  have found := holeAt?_hole_append small t
  rw [hole_eq, List.cons_append] at found ⊢
  rw [pieces, piecesFrom]
  simp only [found]
  rw [piecesFrom_skip, hole_eq, List.length_cons, Nat.add_sub_cancel, List.drop_left]

theorem pieces_cons {c : Char} (none : ∀ i < n, ¬ hole i <+: c :: t) :
    pieces n (c :: t) = .char c :: pieces n t := by
  have found := holeAt?_eq_none_iff.mpr none
  rw [pieces, piecesFrom]
  simp only [found]
  rfl

theorem pieces_append_of_none_begins
    (none : ∀ u v, s = u ++ v → v ≠ [] → ∀ i < n, ¬ hole i <+: v ++ t) :
    pieces n (s ++ t) = s.map .char ++ pieces n t := by
  induction s with
  | nil => rfl
  | cons c s ih =>
      have head : ∀ i < n, ¬ hole i <+: c :: (s ++ t) := none [] (c :: s) rfl (List.cons_ne_nil c s)
      have rest : ∀ u v, s = u ++ v → v ≠ [] → ∀ i < n, ¬ hole i <+: v ++ t := by
        intro u v split
        exact none (c :: u) v (by rw [split, List.cons_append])
      rw [List.cons_append, pieces_cons head, ih rest]
      rfl

theorem flatMap_map_char {f : Piece → List Char} (copy : ∀ c, f (.char c) = [c]) (s : List Char) :
    (s.map Piece.char).flatMap f = s := by
  simp [List.flatMap_map, copy]

theorem pieces_around {i : Nat} (small : i < n) {l r : List Char} (unclosed : '\x7d' ∉ l)
    (unopened : '\x7b' ∉ r) :
    pieces n (l ++ (hole i ++ r)) = l.map .char ++ .arg i :: r.map .char := by
  have left : ∀ u v, l = u ++ v → v ≠ [] → ∀ k < n, ¬ hole k <+: v ++ (hole i ++ r) := by
    intro u v split nonempty k _ begins
    have inside := Text.prefix_of_prefix_append (brace_notMem_holeEnd k) nonempty begins
    have closes : '\x7d' ∈ hole k := close_mem_of_suffix List.suffix_rfl (hole_ne_nil k)
    refine unclosed ?_
    rw [split]
    exact List.mem_append_right u (inside.subset closes)
  have right : ∀ u v, r = u ++ v → v ≠ [] → ∀ k < n, ¬ hole k <+: v ++ [] := by
    intro u v split nonempty k _ begins
    refine unopened ?_
    rw [split]
    exact List.mem_append_right u (brace_mem_of_begins begins nonempty)
  have hright := pieces_append_of_none_begins right
  rw [List.append_nil, pieces_nil, List.append_nil] at hright
  rw [pieces_append_of_none_begins left, pieces_hole_append small, hright]

/-- A row of pieces as it is read: it has holes of arguments only, and no hole begins with one of
its characters. -/
def IsReading (n : Nat) : List Piece → Prop
  | [] => True
  | .char c :: rest => (∀ i < n, ¬ hole i <+: c :: rest.flatMap (·.source)) ∧ IsReading n rest
  | .arg i :: rest => i < n ∧ IsReading n rest

theorem pieces_spec (n : Nat) (text : List Char) :
    IsReading n (pieces n text) ∧ (pieces n text).flatMap (·.source) = text := by
  cases text with
  | nil => exact ⟨trivial, rfl⟩
  | cons c rest =>
      cases found : holeAt? n (c :: rest) with
      | none =>
          have none := holeAt?_eq_none_iff.mp found
          obtain ⟨reading, written⟩ := pieces_spec n rest
          rw [pieces_cons none, List.flatMap_cons]
          refine ⟨⟨?_, reading⟩, ?_⟩
          · rwa [written]
          · rw [written]
            rfl
      | some i =>
          have small : i < n := List.mem_range.mp (List.mem_of_find?_eq_some found)
          have begins := List.find?_some found
          rw [List.isPrefixOf_iff_prefix] at begins
          obtain ⟨behind, split⟩ := begins
          have shorter : behind.length < rest.length + 1 := by
            have hlength := congrArg List.length split
            rw [hole_eq] at hlength
            simp only [List.length_append, List.length_cons] at hlength
            omega
          obtain ⟨reading, written⟩ := pieces_spec n behind
          rw [← split, pieces_hole_append small, List.flatMap_cons]
          exact ⟨⟨small, reading⟩, by rw [written]; rfl⟩
termination_by text.length

/-- A hole is filled as often as it occurs, and a hole without an argument is copied. -/
example : fillAtOnce "\x7b1\x7d\x7b2\x7d\x7b1\x7d" ["a", "b"] = "b\x7b2\x7db" := by
  decide +kernel

theorem IsReading.lt {ps : List Piece} (reading : IsReading n ps) {i : Nat} (h : .arg i ∈ ps) :
    i < n := by
  induction ps with
  | nil => cases h
  | cons p rest ih =>
      cases p with
      | char c =>
          obtain h | h := List.mem_cons.mp h
          · cases h
          · exact ih reading.2 h
      | arg k =>
          obtain h | h := List.mem_cons.mp h
          · cases h
            exact reading.1
          · exact ih reading.2 h

/-! ## The first and the last stage -/

theorem flatMap_filled_zero (args : List String) (ps : List Piece) :
    ps.flatMap (·.filled args 0) = ps.flatMap (·.source) := by
  refine List.flatMap_congr fun p _ => ?_
  cases p with
  | char c => rfl
  | arg i => simp only [Piece.filled, Piece.source, Nat.not_lt_zero, if_false]

theorem IsReading.flatMap_filled {ps : List Piece} {args : List String}
    (reading : IsReading args.length ps) :
    ps.flatMap (·.filled args args.length) = ps.flatMap (·.value args) := by
  refine List.flatMap_congr fun p hp => ?_
  cases p with
  | char c => rfl
  | arg i => exact if_pos (reading.lt hp)

end ObjectInit.Template
