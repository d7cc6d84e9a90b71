import ObjectInit.Proofs.Options.Spelling

/-! # Rows of lexemes

Main statement: the tokens of a text are the lexemes that it writes, unless one of these is `null`
or a number, which no options text has; and only what is written has tokens.
-/

namespace ObjectInit.Options

/-! ## Lexemes -/

/-- The smallest parts of a JSON text. -/
inductive Lexeme
  | token (t : Token)
  | null
  | number (literal : List Char)

def Blanks (cs : List Char) : Prop := ∀ c ∈ cs, c ∈ [' ', '\t', '\n', '\r']

instance (cs : List Char) : Decidable (Blanks cs) := List.decidableBAll _ cs

def Digits (cs : List Char) : Prop := cs ≠ [] ∧ ∀ c ∈ cs, c.isDigit = true

/-- The ways to write a number: a whole part without leading zeros, then a fraction and an exponent
if there are any. -/
inductive WritesNumber : List Char → Prop
  | parts {sign whole fraction exponent : List Char} :
      (sign = [] ∨ sign = ['-']) →
      (whole = ['0'] ∨ Digits whole ∧ whole.head? ≠ some '0') →
      (fraction = [] ∨ ∃ ds, Digits ds ∧ fraction = '.' :: ds) →
      (exponent = [] ∨ ∃ mark ∈ ['e', 'E'], ∃ sign ∈ [[], ['+'], ['-']], ∃ ds, Digits ds ∧
        exponent = mark :: sign ++ ds) →
      WritesNumber (sign ++ whole ++ fraction ++ exponent)

namespace Lexeme

def token? : Lexeme → Option Token
  | token t => some t
  | null | number _ => none

theorem exists_tokens {ls : List Lexeme} (plain : ∀ l ∈ ls, l.token?.isSome = true) :
    ∃ ts : List Token, ls = ts.map token := by
  induction ls with
  | nil => exact ⟨[], rfl⟩
  | cons l ls ih =>
      obtain ⟨first, others⟩ := List.forall_mem_cons.mp plain
      obtain ⟨ts, rfl⟩ := ih others
      cases l with
      | token t => exact ⟨t :: ts, rfl⟩
      | null => cases first
      | number _ => cases first

inductive Writes : Lexeme → List Char → Prop
  | leftBrace : Writes (token .leftBrace) ['\x7b']
  | rightBrace : Writes (token .rightBrace) ['\x7d']
  | leftBracket : Writes (token .leftBracket) ['[']
  | rightBracket : Writes (token .rightBracket) [']']
  | colon : Writes (token .colon) [':']
  | comma : Writes (token .comma) [',']
  | yes : Writes (token (.truth true)) ['t', 'r', 'u', 'e']
  | no : Writes (token (.truth false)) ['f', 'a', 'l', 's', 'e']
  | text {s w : List Char} : Token.Spells s w → Writes (token (.text s)) ('"' :: w ++ ['"'])
  | null : Writes null ['n', 'u', 'l', 'l']
  | number {literal : List Char} : WritesNumber literal → Writes (number literal) literal

theorem writes_text_self (s : String) (plain : Token.Plain s.toList) :
    Writes (token (.text s.toList)) ('"' :: s.toList ++ ['"']) :=
  .text (Token.spells_self plain)

inductive WritesRow : List Lexeme → List Char → Prop
  | nil {blanks : List Char} : Blanks blanks → WritesRow [] blanks
  | cons {blanks w ws : List Char} {l : Lexeme} {ls : List Lexeme} :
      Blanks blanks → l.Writes w → WritesRow ls ws → WritesRow (l :: ls) (blanks ++ w ++ ws)

theorem WritesRow.next {l : Lexeme} {ls : List Lexeme} {w cs : List Char} (written : l.Writes w)
    (row : WritesRow ls cs) : WritesRow (l :: ls) (w ++ cs) :=
  .cons (List.forall_mem_nil _) written row

theorem exists_writes (t : Token) : ∃ w, (token t).Writes w := by
  cases t with
  | leftBrace => exact ⟨_, .leftBrace⟩
  | rightBrace => exact ⟨_, .rightBrace⟩
  | leftBracket => exact ⟨_, .leftBracket⟩
  | rightBracket => exact ⟨_, .rightBracket⟩
  | colon => exact ⟨_, .colon⟩
  | comma => exact ⟨_, .comma⟩
  | truth b =>
      cases b
      · exact ⟨_, .no⟩
      · exact ⟨_, .yes⟩
  | text s =>
      obtain ⟨_, spelled⟩ := Token.exists_spells s
      exact ⟨_, .text spelled⟩

theorem exists_writesRow (ts : List Token) : ∃ cs, WritesRow (ts.map token) cs := by
  induction ts with
  | nil => exact ⟨_, .nil (List.forall_mem_nil _)⟩
  | cons t ts ih =>
      obtain ⟨_, first⟩ := exists_writes t
      obtain ⟨_, others⟩ := ih
      exact ⟨_, .next first others⟩

end Lexeme

/-! ## Reading a written row -/

namespace Token

theorem isSpace_iff {c : Char} : isSpace c = true ↔ c ∈ [' ', '\t', '\n', '\r'] := by
  simp [isSpace, or_assoc]

theorem tokens?_text {s w : List Char} (spelled : Spells s w) (rest : List Char) :
    tokens? ('"' :: (w ++ '"' :: rest)) = (tokens? rest).map (text s :: ·) := by
  have read : readText (w ++ '"' :: rest) = some (s, rest) :=
    readText_eq_some_iff.mpr ⟨w, rfl, spelled⟩
  rw [tokens?]
  split
  · rename_i found
    rw [read] at found
    cases found
    rfl
  · rename_i missing
    rw [read] at missing
    cases missing

theorem tokens?_cons {c : Char} (single : c ∉ ['t', 'f', '"']) (rest : List Char) :
    tokens? (c :: rest) = if isSpace c then tokens? rest else
      (ofMark? c).bind fun mark => (tokens? rest).map (mark :: ·) := by
  simp only [List.mem_cons, List.not_mem_nil, or_false, not_or] at single
  rw [tokens?]
  · cases ofMark? c <;> rfl
  · exact fun _ same => absurd same single.1
  · exact fun _ same => absurd same single.2.1
  · exact single.2.2

theorem tokens?_space {c : Char} (space : c ∈ [' ', '\t', '\n', '\r']) (rest : List Char) :
    tokens? (c :: rest) = tokens? rest := by
  have single : c ∉ ['t', 'f', '"'] := by
    simp only [List.mem_cons, List.not_mem_nil, or_false] at space
    obtain rfl | rfl | rfl | rfl := space <;> decide
  rw [tokens?_cons single, if_pos (isSpace_iff.mpr space)]

theorem tokens?_blanks {blanks : List Char} (blank : Blanks blanks) (rest : List Char) :
    tokens? (blanks ++ rest) = tokens? rest := by
  induction blanks with
  | nil => rfl
  | cons c blanks ih =>
      obtain ⟨space, others⟩ := List.forall_mem_cons.mp blank
      rw [List.cons_append, tokens?_space space, ih others]

theorem tokens?_of_foreign {c : Char} (single : c ∉ ['t', 'f', '"'])
    (foreign : isSpace c = false ∧ ofMark? c = none) (rest : List Char) :
    tokens? (c :: rest) = none := by
  rw [tokens?_cons single, foreign.1, foreign.2]
  rfl

end Token

theorem WritesNumber.exists_first {literal : List Char} (written : WritesNumber literal) :
    ∃ c rest, literal = c :: rest ∧ (c = '-' ∨ c.isDigit = true) := by
  obtain ⟨rfl | rfl, rfl | ⟨⟨filled, digits⟩, -⟩, -, -⟩ := written
  · exact ⟨_, _, rfl, .inr rfl⟩
  · obtain ⟨c, more, rfl⟩ := List.exists_cons_of_ne_nil filled
    exact ⟨c, _, rfl, .inr (digits c List.mem_cons_self)⟩
  · exact ⟨_, _, rfl, .inl rfl⟩
  · exact ⟨_, _, rfl, .inl rfl⟩

theorem WritesNumber.tokens?_eq_none {literal : List Char} (written : WritesNumber literal)
    (rest : List Char) : Token.tokens? (literal ++ rest) = none := by
  obtain ⟨c, more, rfl, first⟩ := written.exists_first
  have apart (d : Char) (other : d ≠ '-' ∧ d.isDigit = false) : c ≠ d := by
    rintro rfl
    simp [other] at first
  refine Token.tokens?_of_foreign ?_ ⟨?_, ?_⟩ _
  · simp [apart]
  · simp [Token.isSpace, apart]
  · simp [Token.ofMark?, apart]

namespace Lexeme

theorem tokens?_of_writes {l : Lexeme} {w : List Char} (written : l.Writes w) (rest : List Char) :
    Token.tokens? (w ++ rest) = l.token?.bind fun t => (Token.tokens? rest).map (t :: ·) := by
  cases written with
  | leftBrace => exact Token.tokens?_cons (by decide) rest
  | rightBrace => exact Token.tokens?_cons (by decide) rest
  | leftBracket => exact Token.tokens?_cons (by decide) rest
  | rightBracket => exact Token.tokens?_cons (by decide) rest
  | colon => exact Token.tokens?_cons (by decide) rest
  | comma => exact Token.tokens?_cons (by decide) rest
  | yes => exact Token.tokens?.eq_2 rest
  | no => exact Token.tokens?.eq_3 rest
  | text spelled =>
      rw [List.append_assoc, List.cons_append]
      exact Token.tokens?_text spelled rest
  | null => exact Token.tokens?_of_foreign (by decide) (by decide) _
  | number written => exact written.tokens?_eq_none rest

/-- Every token of a written row is read, and a row with a lexeme that is no token is not. -/
theorem tokens?_eq_some_iff {ls : List Lexeme} {cs : List Char} (row : WritesRow ls cs)
    {ts : List Token} : Token.tokens? cs = some ts ↔ ls = ts.map token := by
  induction row generalizing ts with
  | @nil blanks blank =>
      have read : Token.tokens? blanks = some [] := by
        rw [← List.append_nil blanks, Token.tokens?_blanks blank, Token.tokens?]
      rw [read]
      simp [eq_comm]
  | @cons _ _ _ l _ blank written _ ih =>
      rw [List.append_assoc, Token.tokens?_blanks blank, tokens?_of_writes written]
      cases l with
      | token t =>
          cases ts with
          | nil => simp [token?]
          | cons t' ts =>
              simp only [token?, Option.bind_some, Option.map_eq_some_iff, List.cons.injEq, ih,
                List.map_cons, token.injEq]
              constructor
              · rintro ⟨_, others, rfl, rfl⟩
                exact ⟨rfl, others⟩
              · rintro ⟨rfl, others⟩
                exact ⟨ts, others, rfl, rfl⟩
      | null => cases ts <;> simp [token?]
      | number literal => cases ts <;> simp [token?]

theorem WritesRow.space {ls : List Lexeme} {cs : List Char} {c : Char}
    (space : c ∈ [' ', '\t', '\n', '\r']) (row : WritesRow ls cs) : WritesRow ls (c :: cs) := by
  cases row with
  | nil blank => exact .nil (List.forall_mem_cons.mpr ⟨space, blank⟩)
  | cons blank written row =>
      have more : Blanks (c :: _) := List.forall_mem_cons.mpr ⟨space, blank⟩
      exact .cons more written row

theorem writes_of_ofMark? {c : Char} {t : Token} (mark : Token.ofMark? c = some t) :
    Writes (token t) [c] := by
  unfold Token.ofMark? at mark
  split_ifs at mark with h₁ h₂ h₃ h₄ h₅ h₆ <;> cases mark <;> subst c
  · exact .leftBrace
  · exact .rightBrace
  · exact .leftBracket
  · exact .rightBracket
  · exact .colon
  · exact .comma

theorem writesRow_of_tokens? {cs : List Char} {ts : List Token}
    (read : Token.tokens? cs = some ts) : WritesRow (ts.map token) cs := by
  fun_induction Token.tokens? cs generalizing ts with
  | case1 =>
      cases read
      exact .nil (List.forall_mem_nil _)
  | case2 rest ih =>
      obtain ⟨ts, others, rfl⟩ := Option.map_eq_some_iff.mp read
      exact .next .yes (ih others)
  | case3 rest ih =>
      obtain ⟨ts, others, rfl⟩ := Option.map_eq_some_iff.mp read
      exact .next .no (ih others)
  | case4 rest s after found _ ih =>
      obtain ⟨ts, others, rfl⟩ := Option.map_eq_some_iff.mp read
      obtain ⟨w, rfl, spelled⟩ := Token.readText_eq_some_iff.mp found
      simpa using WritesRow.next (.text spelled) (ih others)
  | case5 => cases read
  | case6 c rest _ _ _ space ih => exact (ih read).space (Token.isSpace_iff.mp space)
  | case7 c rest _ _ _ _ mark found ih =>
      obtain ⟨ts, others, rfl⟩ := Option.map_eq_some_iff.mp read
      exact .next (writes_of_ofMark? found) (ih others)
  | case8 => cases read

end Lexeme

end ObjectInit.Options
