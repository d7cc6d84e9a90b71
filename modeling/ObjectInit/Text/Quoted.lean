import ObjectInit.Text.Unprintable

/-! # Quoted text

A text in double quotes in which every character can be seen: quotes and backslashes are
escaped, four controls have names, and what is unprintable is written by its code point.
-/

namespace ObjectInit.Text

/-- The digits of a code point, in lower case and without leading zeros. -/
def codePointDigits (c : Char) : List Char := Nat.toDigits 16 c.toNat

/-- The written form of one character inside quotes. An apostrophe stands for itself. -/
def quoteChar (c : Char) : List Char :=
  if c = '\x00' then ['\\', '0']
  else if c = '\t' then ['\\', 't']
  else if c = '\r' then ['\\', 'r']
  else if c = '\n' then ['\\', 'n']
  else if c = '"' then ['\\', '"']
  else if c = '\\' then ['\\', '\\']
  else if isUnprintable c then ['\\', 'u', '\x7b'] ++ codePointDigits c ++ ['\x7d']
  else [c]

def quote (s : String) : String :=
  String.ofList ('"' :: s.toList.flatMap quoteChar ++ ['"'])

end ObjectInit.Text
