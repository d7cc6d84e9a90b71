/-! # Surrogate pairs

A code point above the first 65536 is written as two 16-bit units, a high one and a low one. Apart
from each other the two halves stand for nothing.
-/

namespace ObjectInit.Text

/-- A piece of text: a character as it is, or a 16-bit unit. -/
inductive Piece
  | char (c : Char)
  | unit (n : Nat)
deriving DecidableEq

def isHighHalf (n : Nat) : Bool := 0xD800 ≤ n && n < 0xDC00

def isLowHalf (n : Nat) : Bool := 0xDC00 ≤ n && n < 0xE000

def pairChar (high low : Nat) : Char :=
  Char.ofNat (0x10000 + (high - 0xD800) * 0x400 + (low - 0xDC00))

/-- The characters of a row of pieces, after an unfinished first half if there is one. There are
none if a half stands alone. -/
def joinFrom : Option Nat → List Piece → Option (List Char)
  | none, [] => some []
  | some _, [] => none
  | none, .char c :: rest => (joinFrom none rest).map (c :: ·)
  | some _, .char _ :: _ => none
  | none, .unit n :: rest =>
    if isHighHalf n then joinFrom (some n) rest
    else if isLowHalf n then none
    else (joinFrom none rest).map (Char.ofNat n :: ·)
  | some high, .unit n :: rest =>
    if isLowHalf n then (joinFrom none rest).map (pairChar high n :: ·) else none

def joinPieces (ps : List Piece) : Option (List Char) := joinFrom none ps

end ObjectInit.Text
