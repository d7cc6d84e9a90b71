import ObjectInit.Text.Surrogate

/-! # Tokens of an options text

Of the tokens of JSON only six marks, the two truth values and strings can occur in a text that
describes options, so any other token makes the text unreadable.
-/

namespace ObjectInit.Options

inductive Token
  | leftBrace
  | rightBrace
  | leftBracket
  | rightBracket
  | colon
  | comma
  | truth (value : Bool)
  | text (chars : List Char)
deriving DecidableEq

namespace Token

def isSpace (c : Char) : Bool := c = ' ' || c = '\t' || c = '\n' || c = '\r'

def ofMark? (c : Char) : Option Token :=
  if c = '\x7b' then some leftBrace
  else if c = '\x7d' then some rightBrace
  else if c = '[' then some leftBracket
  else if c = ']' then some rightBracket
  else if c = ':' then some colon
  else if c = ',' then some comma
  else none

def digit? (c : Char) : Option Nat :=
  if '0' ≤ c ∧ c ≤ '9' then some (c.toNat - '0'.toNat)
  else if 'a' ≤ c ∧ c ≤ 'f' then some (c.toNat - 'a'.toNat + 10)
  else if 'A' ≤ c ∧ c ≤ 'F' then some (c.toNat - 'A'.toNat + 10)
  else none

/-- The 16-bit unit that four hexadecimal digits write. -/
def unit? (a b c d : Char) : Option Nat := do
  let a ← digit? a
  let b ← digit? b
  let c ← digit? c
  let d ← digit? d
  return ((a * 16 + b) * 16 + c) * 16 + d

/-- The character that stands behind a backslash for another one, or for itself. -/
def escaped? (c : Char) : Option Char :=
  if c = '"' then some '"'
  else if c = '\\' then some '\\'
  else if c = '/' then some '/'
  else if c = 'b' then some '\x08'
  else if c = 'f' then some '\x0c'
  else if c = 'n' then some '\n'
  else if c = 'r' then some '\r'
  else if c = 't' then some '\t'
  else none

/-- Reads the inside of a string up to its closing quote: its pieces and what follows the quote.
Control characters have to be escaped. -/
def readPieces : List Char → Option (List Text.Piece × List Char)
  | [] => none
  | '"' :: rest => some ([], rest)
  | '\\' :: 'u' :: a :: b :: c :: d :: rest =>
    match unit? a b c d, readPieces rest with
    | some n, some (ps, after) => some (.unit n :: ps, after)
    | _, _ => none
  | '\\' :: e :: rest =>
    match escaped? e, readPieces rest with
    | some c, some (ps, after) => some (.char c :: ps, after)
    | _, _ => none
  | c :: rest =>
    if c = '\\' || c.toNat < 0x20 then none
    else (readPieces rest).map fun (ps, after) => (.char c :: ps, after)

def readText (cs : List Char) : Option (List Char × List Char) :=
  match readPieces cs with
  | some (ps, after) => (Text.joinPieces ps).map fun text => (text, after)
  | none => none

/-- What follows a string is shorter than what followed its opening quote. -/
theorem length_lt_of_readPieces {cs : List Char} {ps : List Text.Piece} {after : List Char}
    (h : readPieces cs = some (ps, after)) : after.length < cs.length := by
  fun_induction readPieces cs generalizing ps after with
  | case1 => cases h
  | case2 rest =>
    simp only [Option.some.injEq, Prod.mk.injEq] at h
    simp [← h.2]
  | case3 a b c d rest n ps' after' hr hu ih =>
    simp only [Option.some.injEq, Prod.mk.injEq] at h
    have := ih hr
    simp only [List.length_cons]
    rw [← h.2]
    omega
  | case4 => cases h
  | case5 e rest hne c ps' after' hr he ih =>
    simp only [Option.some.injEq, Prod.mk.injEq] at h
    have := ih hr
    simp only [List.length_cons]
    rw [← h.2]
    omega
  | case6 => cases h
  | case7 => cases h
  | case8 c rest _ _ _ hc ih =>
    simp only [Option.map_eq_some_iff, Prod.exists, Prod.mk.injEq] at h
    obtain ⟨ps', after', hr, _, rfl⟩ := h
    have := ih hr
    simp only [List.length_cons]
    omega

theorem length_lt_of_readText {cs text after : List Char}
    (h : readText cs = some (text, after)) : after.length < cs.length := by
  simp only [readText] at h
  split at h
  · rename_i hp
    simp only [Option.map_eq_some_iff, Prod.mk.injEq] at h
    obtain ⟨_, _, _, rfl⟩ := h
    exact length_lt_of_readPieces hp
  · cases h

/-- The tokens of a text, if it consists of tokens and spaces. -/
def tokens? : List Char → Option (List Token)
  | [] => some []
  | 't' :: 'r' :: 'u' :: 'e' :: rest => (tokens? rest).map (truth true :: ·)
  | 'f' :: 'a' :: 'l' :: 's' :: 'e' :: rest => (tokens? rest).map (truth false :: ·)
  | '"' :: rest =>
    match h : readText rest with
    | some (chars, after) =>
      have := length_lt_of_readText h
      (tokens? after).map (Token.text chars :: ·)
    | none => none
  | c :: rest =>
    if isSpace c then tokens? rest
    else
      match ofMark? c with
      | some mark => (tokens? rest).map (mark :: ·)
      | none => none
termination_by cs => cs.length
decreasing_by all_goals simp only [List.length_cons]; omega

end Token

end ObjectInit.Options
