import Verdict.Text.Printable
/-!
# Quoted text

Messages show a text between quotes, so that its ends and its unprintable characters can be seen.
The quote is `'`, or `"` where the text holds `'` and no `"`. A backslash stands in front of the
quote and of a backslash; tab, line feed and carriage return have letters; any other character
that is not printable is written by its code point, in two, four or eight lower-case hexadecimal
digits. Bytes are shown the same way behind a `b`, each byte outside printable ASCII by its two
digits.
-/

namespace Verdict.Text

/-- The quote for a text that may hold single quotes and double quotes. -/
def quoteFor (hasSingle hasDouble : Bool) : Char :=
  if hasSingle && !hasDouble then '"' else '\''

/-- The lower-case hexadecimal digit of a value below sixteen. -/
def hexDigit (n : Nat) : Char :=
  if n < 10 then Char.ofNat (48 + n) else Char.ofNat (87 + n)

/-- The last `width` hexadecimal digits of a number. -/
def hexDigits : Nat → Nat → List Char
  | 0, _ => []
  | width + 1, n => hexDigits width (n / 16) ++ [hexDigit (n % 16)]

/-- The escape of a code point: `\x`, `\u` or `\U` and as many digits as its size asks for. -/
def codePointEscape (n : Nat) : List Char :=
  if n < 0x100 then '\\' :: 'x' :: hexDigits 2 n
  else if n < 0x10000 then '\\' :: 'u' :: hexDigits 4 n
  else '\\' :: 'U' :: hexDigits 8 n

/-- The letter that stands for a control character behind a backslash. -/
def escapeLetter? (n : Nat) : Option Char :=
  if n = 9 then some 't' else if n = 10 then some 'n' else if n = 13 then some 'r' else none

/-- A character as it stands inside the quotes `q`. -/
def quotedChar (q : Char) (c : Char) : List Char :=
  if c = q ∨ c = '\\' then ['\\', c]
  else match escapeLetter? c.toNat with
    | some l => ['\\', l]
    | none => if isPrintable c then [c] else codePointEscape c.toNat

/-- A byte as it stands inside the quotes `q`. -/
def quotedByte (q : Char) (b : UInt8) : List Char :=
  let n := b.toNat
  if n = q.toNat ∨ n = 92 then ['\\', Char.ofNat n]
  else match escapeLetter? n with
    | some l => ['\\', l]
    | none => if 32 ≤ n ∧ n < 127 then [Char.ofNat n] else codePointEscape n

/-- A text between quotes. -/
def quoted (s : String) : String :=
  let cs := s.toList
  let q := quoteFor (cs.contains '\'') (cs.contains '"')
  String.ofList (q :: cs.flatMap (quotedChar q) ++ [q])

/-- Bytes between quotes, behind a `b`. -/
def quotedBytes (bs : List UInt8) : String :=
  let q := quoteFor (bs.contains 39) (bs.contains 34)
  String.ofList ('b' :: q :: bs.flatMap (quotedByte q) ++ [q])

end Verdict.Text
