import Verdict.Fault
import Verdict.Numeric.Numeral
import Verdict.Text.Blank
import Verdict.Text.Case
/-!
# Number literals

A literal in a base is an integer between blanks: an optional sign, the mark of the base where it
has one (`0b`, `0o`, `0x`), and digits. A decimal literal is a numeral between blanks, or one of the
words for the infinities and for no number. In a text of ASCII characters alone the separators
U+001C to U+001F are no blanks here.
-/

namespace Verdict

open Text

namespace Literal

/-- Whether a character is a blank around a literal, in a text that may be ASCII alone. -/
def isAround (ascii : Bool) (c : Char) : Bool :=
  isBlank c && !(ascii && 0x1C ≤ c.toNat && c.toNat ≤ 0x1F)

/-- The characters of a literal without the blanks around it. -/
def core (text : String) : List Char :=
  let cs := text.toList
  trimWhere (isAround (cs.all fun c => c.toNat < 128)) cs

/-- The letter that marks a base behind a zero. -/
def baseMark? : Nat → Option Char
  | 2 => some 'b'
  | 8 => some 'o'
  | 16 => some 'x'
  | _ => none

/-- The characters behind the mark of a base, if it stands here. -/
def afterMark (base : Nat) : List Char → List Char
  | '0' :: c :: cs => if baseMark? base = some c.toLower then cs else '0' :: c :: cs
  | cs => cs

/-- The leading characters that are digits of a base, by their values. -/
def digitsIn (base : Nat) : List Char → List Nat
  | [] => []
  | c :: cs =>
    match baseDigit? c with
    | some d => if d < base then d :: digitsIn base cs else []
    | none => []

/-- The integer that a text writes in a base. Only in base ten is the number of digits limited. -/
def integer (base : Nat) (text : String) : Except Fault Int :=
  let s := Numeral.sign (core text)
  let cs := afterMark base s.2
  let digits := digitsIn base cs
  if base = 10 ∧ digitLimit < digits.length then .error (.longNumeral digits.length)
  else if digits.isEmpty ∨ digits.length ≠ cs.length then .error (.notNumeral base text)
  else
    let n : Int := ofDigits base digits
    .ok (if s.1 then -n else n)

/-- The floating-point number that a text writes. -/
def decimal (text : String) : Except Fault Binary64 :=
  let cs := core text
  match Numeral.ofChars? cs with
  | some n => .ok n.toBinary64
  | none =>
    let s := Numeral.sign cs
    let word := lowered (String.ofList s.2)
    if word = "inf" ∨ word = "infinity" then .ok (.infinite s.1)
    else if word = "nan" then .ok .nan
    else .error (.notDecimal text)

end Literal

end Verdict
