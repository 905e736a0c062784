import Verdict.Numeric.Literal
import Verdict.Text.Fields
import Verdict.Value.Basic
import Verdict.Yaml.Tag
import Verdict.Yaml.Timestamp
/-!
# Values of scalars

The value of a scalar follows from its tag and its text. Numbers may have underscores among their
digits, which do not count, and colons between the digits of base 60. A scalar whose text does not
fit a tag that it was given is a fault, except for bytes, where it is a problem of the document.
-/

namespace Verdict.Yaml

open Text

/-- A number text without its underscores and its sign, and whether that was a minus. -/
def unsigned (text : String) : Except Fault (Bool × List Char) :=
  match text.toList.filter (· ≠ '_') with
  | [] => .error .emptyNumeral
  | '-' :: cs => .ok (true, cs)
  | '+' :: cs => .ok (false, cs)
  | cs => .ok (false, cs)

/-- The sum of digits of base 60, the last one first, from a power of sixty on. -/
def sexagesimal : List Int → Int → Int
  | [], _ => 0
  | d :: ds, power => d * power + sexagesimal ds (60 * power)

/-- The value of an integer scalar. -/
def intValue (text : String) : Except Fault Int := do
  let (negative, cs) ← unsigned text
  let s := String.ofList cs
  let n ←
    match cs with
    | [] => .error .emptyNumeral
    | ['0'] => .ok 0
    | '0' :: 'b' :: rest => Literal.integer 2 (String.ofList rest)
    | '0' :: 'x' :: rest => Literal.integer 16 (String.ofList rest)
    | '0' :: _ => Literal.integer 8 s
    | _ =>
      if cs.contains ':' then do
        let digits ← (fields ':' cs).mapM fun f => Literal.integer 10 (String.ofList f)
        .ok (sexagesimal digits.reverse 1)
      else Literal.integer 10 s
  return if negative then -n else n

/-- The rounded product of a floating-point digit and the factor of its place, which must be finite.
-/
def placed (d : Binary64) : Binary64 → Except Fault Binary64
  | .infinite _ => .error .largeFactor
  | factor => .ok (d.mul factor)

/-- The running sum of floating-point digits of base 60, the last one first: each product and each
sum is rounded. -/
def sexagesimalSum : List Binary64 → Nat → Binary64 → Except Fault Binary64
  | [], _, sum => .ok sum
  | d :: ds, power, sum => do sexagesimalSum ds (60 * power) (sum.add (← placed d (.ofInt power)))

/-- The value of a floating-point scalar. -/
def floatValue (text : String) : Except Fault Binary64 := do
  let (negative, cs) ← unsigned (lowered text)
  let s := String.ofList cs
  if s = ".nan" then return .nan
  else
    let x ←
      if s = ".inf" then .ok (.infinite false)
      else if cs.contains ':' then do
        let digits ← (fields ':' cs).mapM fun f => Literal.decimal (String.ofList f)
        sexagesimalSum digits.reverse 1 (.zero false)
      else Literal.decimal s
    return if negative then x.neg else x

/-- The value of a timestamp scalar. -/
def timestampValue (text : String) : Except Fault Value := do
  let cs := text.toList
  match Timestamp.ofChars? (if cs.getLast? = some '\n' then cs.dropLast else cs) with
  | none => .error .notMoment
  | some t =>
    match t.time with
    | none => return .date (← Date.make t.year t.month t.day)
    | some time => return .moment (← t.toMoment time)

/-- The value of a truth scalar. -/
def truthValue (text : String) : Except Fault Bool :=
  match Tag.truthSpellings.find? fun e => e.1 = lowered text with
  | some e => .ok e.2
  | none => .error (.unknownTruth (lowered text))

/-! ## Bytes -/

/-- The six bits that a character stands for in base 64. -/
def sextet? (c : Char) : Option Nat :=
  let n := c.toNat
  if 65 ≤ n ∧ n ≤ 90 then some (n - 65)
  else if 97 ≤ n ∧ n ≤ 122 then some (n - 71)
  else if 48 ≤ n ∧ n ≤ 57 then some (n + 4)
  else if n = 43 then some 62
  else if n = 47 then some 63
  else none

/-- The bytes that characters write in base 64 from a place in a group of four on: `place`
characters of the group came before with `bits` left over, and `pads` padding signs. Other
characters do not count; padding that ends a group ends the text. -/
def base64 : List Char → Nat → Nat → Nat → Option (List UInt8)
  | [], place, _, _ => if place = 0 then some [] else none
  | c :: cs, place, bits, pads =>
    if c = '=' then
      if 2 ≤ place ∧ 4 ≤ place + pads + 1 then some []
      else base64 cs place bits (if 2 ≤ place then pads + 1 else pads)
    else
      match sextet? c with
      | none => base64 cs place bits pads
      | some n =>
        match place with
        | 0 => base64 cs 1 n 0
        | 1 => (base64 cs 2 (n % 16) 0).map ((bits * 4 + n / 16).toUInt8 :: ·)
        | 2 => (base64 cs 3 (n % 4) 0).map ((bits * 16 + n / 4).toUInt8 :: ·)
        | _ => (base64 cs 0 0 0).map ((bits * 64 + n).toUInt8 :: ·)

/-- The value of a scalar of bytes. -/
def bytesValue (text : String) : Attempt (List UInt8) :=
  if text.toList.any fun c => 128 ≤ c.toNat then refuse .badBinary
  else
    match base64 text.toList 0 0 0 with
    | some bytes => .ok bytes
    | none => refuse .badBinary

/-- The value of a scalar. -/
def scalarValue (tag : Tag) (text : String) : Attempt Value :=
  match tag with
  | .null => .ok .null
  | .bool => orFault ((truthValue text).map .bool)
  | .int => orFault ((intValue text).map .int)
  | .float => orFault ((floatValue text).map .float)
  | .binary => (bytesValue text).map .bytes
  | .timestamp => orFault (timestampValue text)
  | .str => .ok (.text text)
  | .omap | .pairs | .set | .seq | .map => refuse (.wrongKind tag.uri)
  | .merge | .value | .other _ => refuse (.unknownTag tag.uri)

end Verdict.Yaml
