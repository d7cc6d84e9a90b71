import Mathlib.Tactic.SplitIfs
import ObjectInit.Options.Token

/-! # Spelled strings

A character stands for itself, is escaped, or is written as one or two 16-bit units. Main statement:
the reader finds a string exactly where it is spelled, in whichever way.
-/

namespace ObjectInit.Options.Token

/-! ## The grammar -/

def WritesDigit (d : Nat) (c : Char) : Prop := d < 16 ∧ (c = d.digitChar ∨ c = d.digitChar.toUpper)

instance (d : Nat) (c : Char) : Decidable (WritesDigit d c) :=
  inferInstanceAs (Decidable (d < 16 ∧ (c = d.digitChar ∨ c = d.digitChar.toUpper)))

/-- A 16-bit unit by its four digits, the highest first. -/
inductive WritesUnit : Nat → List Char → Prop
  | digits {a b c d : Nat} {a' b' c' d' : Char} : WritesDigit a a' → WritesDigit b b' →
      WritesDigit c c' → WritesDigit d d' →
        WritesUnit (((a * 16 + b) * 16 + c) * 16 + d) ['\\', 'u', a', b', c', d']

/-- The letters that stand behind a backslash, each with its character. -/
def shorthands : List (Char × Char) :=
  [('"', '"'), ('\\', '\\'), ('/', '/'), ('b', '\x08'), ('f', '\x0c'), ('n', '\n'), ('r', '\r'),
    ('t', '\t')]

inductive SpellsChar : Char → List Char → Prop
  | plain {c : Char} : c ≠ '"' → c ≠ '\\' → 0x20 ≤ c.toNat → SpellsChar c [c]
  | shorthand {e c : Char} : (e, c) ∈ shorthands → SpellsChar c ['\\', e]
  | unit {c : Char} {u : List Char} : WritesUnit c.toNat u → SpellsChar c u
  | pair {c : Char} {high low : Nat} {u v : List Char} : high < 0x400 → low < 0x400 →
      c.toNat = 0x10000 + high * 0x400 + low → WritesUnit (0xD800 + high) u →
        WritesUnit (0xDC00 + low) v → SpellsChar c (u ++ v)

inductive Spells : List Char → List Char → Prop
  | nil : Spells [] []
  | cons {c : Char} {s w ws : List Char} : SpellsChar c w → Spells s ws → Spells (c :: s) (w ++ ws)

def Plain (s : List Char) : Prop := ∀ c ∈ s, c ≠ '"' ∧ c ≠ '\\' ∧ 0x20 ≤ c.toNat

instance (s : List Char) : Decidable (Plain s) := List.decidableBAll _ s

theorem spells_self {s : List Char} (plain : Plain s) : Spells s s := by
  induction s with
  | nil => exact .nil
  | cons c s ih =>
      obtain ⟨⟨quote, backslash, printable⟩, others⟩ := List.forall_mem_cons.mp plain
      exact .cons (.plain quote backslash printable) (ih others)

theorem Spells.append {s t v w : List Char} (front : Spells s v) (back : Spells t w) :
    Spells (s ++ t) (v ++ w) := by
  induction front with
  | nil => exact back
  | cons char _ ih =>
      rw [List.append_assoc]
      exact .cons char ih

/-- A control character is spelled as a unit, since few of them have a letter. -/
theorem exists_spellsChar (c : Char) : ∃ w, SpellsChar c w := by
  by_cases quote : c = '"'
  · exact ⟨_, .shorthand (e := '"') (by simp [quote, shorthands])⟩
  by_cases backslash : c = '\\'
  · exact ⟨_, .shorthand (e := '\\') (by simp [backslash, shorthands])⟩
  by_cases control : c.toNat < 0x20
  · have written := WritesUnit.digits (a := 0) (b := 0) (c := c.toNat / 16) (d := c.toNat % 16)
      ⟨by decide, .inl rfl⟩ ⟨by decide, .inl rfl⟩ ⟨by omega, .inl rfl⟩ ⟨by omega, .inl rfl⟩
    have point : ((0 * 16 + 0) * 16 + c.toNat / 16) * 16 + c.toNat % 16 = c.toNat := by omega
    rw [point] at written
    exact ⟨_, .unit written⟩
  · exact ⟨_, .plain quote backslash (Nat.not_lt.mp control)⟩

theorem exists_spells (s : List Char) : ∃ w, Spells s w := by
  induction s with
  | nil => exact ⟨_, .nil⟩
  | cons c s ih =>
      obtain ⟨_, first⟩ := exists_spellsChar c
      obtain ⟨_, others⟩ := ih
      exact ⟨_, .cons first others⟩

/-! ## Digits and letters -/

theorem toNat_lt_of_digit? {c : Char} {d : Nat} (hd : digit? c = some d) : c.toNat < 0x80 := by
  have below {last : Char} (hlast : last.toNat < 0x80) (hc : c ≤ last) : c.toNat < 0x80 :=
    Nat.lt_of_le_of_lt (UInt32.le_iff_toNat_le.mp hc) hlast
  unfold digit? at hd
  split_ifs at hd with decimal lower upper
  · exact below (by decide) decimal.2
  · exact below (by decide) lower.2
  · exact below (by decide) upper.2

theorem digit?_eq_some_iff {c : Char} {d : Nat} : digit? c = some d ↔ WritesDigit d c := by
  constructor
  · intro hd
    have read : ∀ n < 0x80, ∀ d ∈ digit? (Char.ofNat n), WritesDigit d (Char.ofNat n) := by decide
    have written := read c.toNat (toNat_lt_of_digit? hd) d
    rw [Char.ofNat_toNat] at written
    exact written hd
  · rintro ⟨small, rfl | rfl⟩
    · revert d
      decide
    · revert d
      decide

theorem unit?_eq_some_iff {a b c d : Char} {n : Nat} :
    unit? a b c d = some n ↔ WritesUnit n ['\\', 'u', a, b, c, d] := by
  unfold unit?
  simp only [bind, pure, Option.bind_eq_some_iff, digit?_eq_some_iff, Option.some.injEq]
  constructor
  · rintro ⟨a', ha, b', hb, c', hc, d', hd, rfl⟩
    exact .digits ha hb hc hd
  · rintro ⟨ha, hb, hc, hd⟩
    exact ⟨_, ha, _, hb, _, hc, _, hd, rfl⟩

theorem WritesUnit.lt {n : Nat} {u : List Char} (written : WritesUnit n u) : n < 0x10000 := by
  obtain ⟨⟨ha, -⟩, ⟨hb, -⟩, ⟨hc, -⟩, hd, -⟩ := written
  omega

theorem escaped?_eq_some_iff {e c : Char} : escaped? e = some c ↔ (e, c) ∈ shorthands := by
  unfold escaped? shorthands
  split_ifs <;> simp_all [eq_comm]

/-! ## Pieces -/

inductive WritesPiece : Text.Piece → List Char → Prop
  | plain {c : Char} : c ≠ '"' → c ≠ '\\' → 0x20 ≤ c.toNat → WritesPiece (.char c) [c]
  | shorthand {e c : Char} : (e, c) ∈ shorthands → WritesPiece (.char c) ['\\', e]
  | unit {n : Nat} {u : List Char} : WritesUnit n u → WritesPiece (.unit n) u

inductive WritesPieces : List Text.Piece → List Char → Prop
  | nil : WritesPieces [] []
  | cons {p : Text.Piece} {ps : List Text.Piece} {w ws : List Char} :
      WritesPiece p w → WritesPieces ps ws → WritesPieces (p :: ps) (w ++ ws)

theorem readPieces_of_writesPiece {p : Text.Piece} {w : List Char} (written : WritesPiece p w)
    (tail : List Char) :
    readPieces (w ++ tail) = (readPieces tail).map fun (ps, after) => (p :: ps, after) := by
  cases written with
  | @plain c quote backslash printable =>
      have plain : ¬ (c = '\\' || c.toNat < 0x20) = true := by
        simp [backslash, printable]
      rw [List.singleton_append, readPieces, if_neg plain]
      · exact quote
      · exact fun _ _ _ _ _ same => absurd same backslash
      · exact fun _ _ same => absurd same backslash
  | @shorthand e c letter =>
      have unit : e ≠ 'u' := by
        rintro rfl
        simp [shorthands] at letter
      show readPieces ('\\' :: e :: tail) = _
      rw [readPieces, escaped?_eq_some_iff.mpr letter]
      · cases readPieces tail <;> rfl
      · exact fun _ _ _ _ _ same => absurd same unit
  | unit written =>
      obtain ⟨ha, hb, hc, hd⟩ := written
      rename_i a b c d a' b' c' d'
      show readPieces ('\\' :: 'u' :: a' :: b' :: c' :: d' :: tail) = _
      rw [readPieces, unit?_eq_some_iff.mpr (.digits ha hb hc hd)]
      cases readPieces tail <;> rfl

theorem readPieces_eq_some_iff {cs after : List Char} {ps : List Text.Piece} :
    readPieces cs = some (ps, after) ↔ ∃ w, cs = w ++ '"' :: after ∧ WritesPieces ps w := by
  constructor
  · intro read
    fun_induction readPieces cs generalizing ps after with
    | case1 => cases read
    | case2 rest =>
        cases read
        exact ⟨[], rfl, .nil⟩
    | case3 a b c d rest n ps' after' found unit ih =>
        cases read
        obtain ⟨w, rfl, written⟩ := ih found
        exact ⟨_, rfl, .cons (.unit (unit?_eq_some_iff.mp unit)) written⟩
    | case4 => cases read
    | case5 e rest _ c ps' after' found letter ih =>
        cases read
        obtain ⟨w, rfl, written⟩ := ih found
        exact ⟨_, rfl, .cons (.shorthand (escaped?_eq_some_iff.mp letter)) written⟩
    | case6 => cases read
    | case7 => cases read
    | case8 c rest quote _ _ plain ih =>
        obtain ⟨⟨ps', after'⟩, found, same⟩ := Option.map_eq_some_iff.mp read
        cases same
        obtain ⟨w, rfl, written⟩ := ih found
        simp only [Bool.or_eq_true, decide_eq_true_eq, not_or, Nat.not_lt] at plain
        exact ⟨_, rfl, .cons (.plain quote plain.1 plain.2) written⟩
  · rintro ⟨w, rfl, written⟩
    induction written with
    | nil => rfl
    | cons piece _ ih =>
        rw [List.append_assoc, readPieces_of_writesPiece piece, ih, Option.map_some]

/-! ## Pairs of units -/

theorem toNat_ofNat {n : Nat} (valid : n.isValidChar) : (Char.ofNat n).toNat = n := by
  unfold Char.ofNat
  rw [dif_pos valid]
  rfl

theorem not_half (c : Char) :
    Text.isHighHalf c.toNat = false ∧ Text.isLowHalf c.toNat = false := by
  have valid : c.toNat < 0xD800 ∨ 0xDFFF < c.toNat ∧ c.toNat < 0x110000 := c.valid
  simp only [Text.isHighHalf, Text.isLowHalf, Bool.and_eq_false_iff, decide_eq_false_iff_not]
  omega

theorem toNat_pairChar {high low : Nat} (hhigh : high < 0x400) (hlow : low < 0x400) :
    (Text.pairChar (0xD800 + high) (0xDC00 + low)).toNat = 0x10000 + high * 0x400 + low := by
  unfold Text.pairChar
  rw [Nat.add_sub_cancel_left, Nat.add_sub_cancel_left]
  exact toNat_ofNat (.inr (by omega))

open Text in
theorem exists_pieces_of_spellsChar {c : Char} {w : List Char} (spelled : SpellsChar c w) :
    ∃ qs, WritesPieces qs w ∧ ∀ ps, joinPieces (qs ++ ps) = (joinPieces ps).map (c :: ·) := by
  cases spelled with
  | plain quote backslash printable =>
      exact ⟨[.char c], .cons (.plain quote backslash printable) .nil, fun _ => rfl⟩
  | shorthand letter => exact ⟨[.char c], .cons (.shorthand letter) .nil, fun _ => rfl⟩
  | unit written =>
      refine ⟨[.unit c.toNat], by simpa using WritesPieces.cons (.unit written) .nil, fun ps => ?_⟩
      obtain ⟨high, low⟩ := not_half c
      show joinFrom none (.unit c.toNat :: ps) = _
      rw [joinFrom, high, low, Char.ofNat_toNat]
      rfl
  | @pair _ high low u v hhigh hlow point writtenHigh writtenLow =>
      refine ⟨[.unit (0xD800 + high), .unit (0xDC00 + low)],
        by simpa using WritesPieces.cons (.unit writtenHigh) (.cons (.unit writtenLow) .nil),
        fun ps => ?_⟩
      have isHigh : isHighHalf (0xD800 + high) = true := by simp [isHighHalf]; omega
      have isLow : isLowHalf (0xDC00 + low) = true := by simp [isLowHalf]; omega
      have char : pairChar (0xD800 + high) (0xDC00 + low) = c := by
        rw [← Char.toNat_inj, toNat_pairChar hhigh hlow, point]
      show joinFrom none (.unit (0xD800 + high) :: .unit (0xDC00 + low) :: ps) = _
      rw [joinFrom, if_pos isHigh, joinFrom, if_pos isLow, char]
      rfl

theorem WritesPieces.append {ps qs : List Text.Piece} {v w : List Char} (hp : WritesPieces ps v)
    (hq : WritesPieces qs w) : WritesPieces (ps ++ qs) (v ++ w) := by
  induction hp with
  | nil => exact hq
  | cons piece _ ih =>
      rw [List.append_assoc]
      exact .cons piece ih

/-- The ways to spell a string whose first half of a pair, if there is one, is written already. -/
def SpellsAfter : Option Nat → List Char → List Char → Prop
  | none, s, w => Spells s w
  | some high, s, w => ∀ u, Text.isHighHalf high = true → WritesUnit high u → Spells s (u ++ w)

theorem spellsAfter_of_joinFrom {pending : Option Nat} {ps : List Text.Piece} {s w : List Char}
    (joined : Text.joinFrom pending ps = some s) (written : WritesPieces ps w) :
    SpellsAfter pending s w := by
  fun_induction Text.joinFrom pending ps generalizing s w with
  | case1 =>
      cases joined
      cases written
      exact .nil
  | case2 => cases joined
  | case3 c rest ih =>
      obtain ⟨s', joined', rfl⟩ := Option.map_eq_some_iff.mp joined
      obtain - | ⟨first, others⟩ := written
      have spelled : Spells s' _ := ih joined' others
      cases first with
      | plain quote backslash printable => exact .cons (.plain quote backslash printable) spelled
      | shorthand letter => exact .cons (.shorthand letter) spelled
  | case4 => cases joined
  | case5 n rest high ih =>
      obtain - | ⟨first, others⟩ := written
      cases first with
      | unit writtenHigh => exact ih joined others _ high writtenHigh
  | case6 n rest high low => cases joined
  | case7 n rest high low ih =>
      obtain ⟨s', joined', rfl⟩ := Option.map_eq_some_iff.mp joined
      obtain - | ⟨first, others⟩ := written
      have spelled : Spells s' _ := ih joined' others
      cases first with
      | unit writtenUnit =>
          have small := writtenUnit.lt
          have valid : n.isValidChar := by
            simp only [Text.isHighHalf, Text.isLowHalf, Bool.and_eq_true, decide_eq_true_eq]
              at high low
            unfold Nat.isValidChar
            omega
          refine .cons (.unit ?_) spelled
          rwa [toNat_ofNat valid]
  | case8 high n rest low ih =>
      obtain ⟨s', joined', rfl⟩ := Option.map_eq_some_iff.mp joined
      obtain - | ⟨first, others⟩ := written
      have spelled : Spells s' _ := ih joined' others
      cases first with
      | unit writtenLow =>
          intro u isHigh writtenHigh
          simp only [Text.isHighHalf, Text.isLowHalf, Bool.and_eq_true, decide_eq_true_eq]
            at isHigh low
          obtain ⟨high, rfl⟩ := Nat.exists_eq_add_of_le isHigh.1
          obtain ⟨n, rfl⟩ := Nat.exists_eq_add_of_le low.1
          have hhigh : high < 0x400 := by omega
          have hlow : n < 0x400 := by omega
          rw [← List.append_assoc]
          exact .cons (.pair hhigh hlow (toNat_pairChar hhigh hlow) writtenHigh writtenLow) spelled
  | case9 high n rest low => cases joined

theorem spells_iff {s w : List Char} :
    Spells s w ↔ ∃ ps, WritesPieces ps w ∧ Text.joinPieces ps = some s := by
  constructor
  · intro spelled
    induction spelled with
    | nil => exact ⟨[], .nil, rfl⟩
    | cons char _ ih =>
        obtain ⟨qs, first, step⟩ := exists_pieces_of_spellsChar char
        obtain ⟨ps, others, joined⟩ := ih
        exact ⟨qs ++ ps, first.append others, by rw [step, joined, Option.map_some]⟩
  · rintro ⟨ps, written, joined⟩
    exact spellsAfter_of_joinFrom joined written

/-- The reader finds a string exactly where it is spelled in front of a closing quote. -/
theorem readText_eq_some_iff {cs s after : List Char} :
    readText cs = some (s, after) ↔ ∃ w, cs = w ++ '"' :: after ∧ Spells s w := by
  simp only [spells_iff]
  constructor
  · intro read
    unfold readText at read
    split at read
    · rename_i ps rest pieces
      obtain ⟨_, joined, same⟩ := Option.map_eq_some_iff.mp read
      cases same
      obtain ⟨w, rfl, written⟩ := readPieces_eq_some_iff.mp pieces
      exact ⟨w, rfl, ps, written, joined⟩
    · cases read
  · rintro ⟨w, rfl, ps, written, joined⟩
    unfold readText
    simp only [readPieces_eq_some_iff.mpr ⟨w, rfl, written⟩, joined, Option.map_some]

end ObjectInit.Options.Token
