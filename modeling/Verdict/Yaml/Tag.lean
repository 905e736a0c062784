import Verdict.Yaml.Problem
/-!
# Tags

A tag says what kind of value a node has. A scalar without a tag has the tag that its form suggests:
the spellings of nothing and of truth, integers in base 2, 8, 10, 16 and 60, decimals and those in
base 60, dates and moments, the merge mark `<<` and the default mark `=`; anything else is a text.
-/

namespace Verdict.Yaml

/-- The kind of value of a node. -/
inductive Tag where
  /-- Nothing. -/
  | null
  /-- A truth value. -/
  | bool
  /-- An integer. -/
  | int
  /-- A floating-point number. -/
  | float
  /-- Bytes. -/
  | binary
  /-- A date or a moment. -/
  | timestamp
  /-- An ordered list of pairs with distinct keys. -/
  | omap
  /-- A list of pairs. -/
  | pairs
  /-- A set. -/
  | set
  /-- A text. -/
  | str
  /-- A list. -/
  | seq
  /-- A mapping. -/
  | map
  /-- The mark of a mapping that is merged into another one. -/
  | merge
  /-- The mark of a default value. -/
  | value
  /-- Any other kind. -/
  | other (uri : String)
  deriving DecidableEq, Repr

namespace Tag

/-- The stem that the tags of the format share. -/
def stem : String := "tag:yaml.org,2002:"

/-- The short names of the tags of the format. -/
def names : List (String × Tag) :=
  [("null", .null), ("bool", .bool), ("int", .int), ("float", .float), ("binary", .binary),
    ("timestamp", .timestamp), ("omap", .omap), ("pairs", .pairs), ("set", .set), ("str", .str),
    ("seq", .seq), ("map", .map), ("merge", .merge), ("value", .value)]

/-- The tag with a URI. -/
def ofUri (uri : String) : Tag :=
  match names.find? fun e => stem ++ e.1 = uri with
  | some e => e.2
  | none => .other uri

/-- The URI of a tag. -/
def uri (t : Tag) : String :=
  match t with
  | .other uri => uri
  | t => stem ++ ((names.find? fun e => e.2 = t).map Prod.fst).getD ""

/-! ## Forms of scalars -/

/-- The spellings of truth values, in lower case. -/
def truthSpellings : List (String × Bool) :=
  [("yes", true), ("no", false), ("true", true), ("false", false), ("on", true), ("off", false)]

/-- A text in lower case, with a capital at the front, and in capitals. -/
def threeCases (s : String) : List String :=
  [s, String.ofList ((s.toList.take 1).map Char.toUpper ++ s.toList.drop 1),
    String.ofList (s.toList.map Char.toUpper)]

/-- Whether a text spells a truth value, in one of three letter cases. -/
def isTruth (s : String) : Bool :=
  truthSpellings.any fun e => (threeCases e.1).contains s

/-- Whether a text stands for nothing. -/
def isNull (s : String) : Bool := ["~", "null", "Null", "NULL", ""].contains s

/-- Whether a character is a decimal digit or an underscore. -/
def isDigitOrLow (c : Char) : Bool := c.isDigit || c = '_'

/-- The characters behind an optional sign. -/
def afterSign : List Char → List Char
  | '+' :: cs => cs
  | '-' :: cs => cs
  | cs => cs

/-- Whether the characters are one or more groups of a colon and a number below sixty, and what
follows them is of a class. -/
def sixtieths (tail : List Char → Bool) : List Char → Bool
  | ':' :: a :: cs =>
    a.isDigit &&
      match cs with
      | [] => tail []
      | b :: rest =>
        if b.isDigit then a ≤ '5' && (tail rest || sixtieths tail rest)
        else tail (b :: rest) || sixtieths tail (b :: rest)
  | _ => false

/-- Whether the characters are an integer in base 2, 8, 10, 16 or 60. -/
def isInt (cs : List Char) : Bool :=
  match afterSign cs with
  | ['0'] => true
  | '0' :: 'b' :: rest => !rest.isEmpty && rest.all fun c => c = '0' || c = '1' || c = '_'
  | '0' :: 'x' :: rest => !rest.isEmpty && rest.all fun c => isHex c || c = '_'
  | '0' :: rest => rest.all fun c => ('0' ≤ c && c ≤ '7') || c = '_'
  | c :: rest =>
    c.isDigit &&
      (let tail := rest.dropWhile isDigitOrLow
       tail.isEmpty || sixtieths List.isEmpty tail)
  | [] => false
where
  /-- Whether a character is a hexadecimal digit. -/
  isHex (c : Char) : Bool := c.isDigit || ('a' ≤ c && c ≤ 'f') || ('A' ≤ c && c ≤ 'F')

/-- Whether the characters are nothing or an exponent with a sign. -/
def isExponent : List Char → Bool
  | [] => true
  | e :: s :: ds =>
    (e = 'e' || e = 'E') && (s = '+' || s = '-') && !ds.isEmpty && ds.all Char.isDigit
  | _ => false

/-- Whether the characters are a point and digits. -/
def isPointAndDigits : List Char → Bool
  | '.' :: cs => cs.all isDigitOrLow
  | _ => false

/-- Whether the characters are a decimal number, or one in base 60, with a point, an infinity or no
number. -/
def isFloat (cs : List Char) : Bool :=
  let unsigned := afterSign cs
  [".nan", ".NaN", ".NAN"].contains (String.ofList cs) ||
    [".inf", ".Inf", ".INF"].contains (String.ofList unsigned) ||
    (match cs with
     | '.' :: c :: rest => c.isDigit && isExponent (rest.dropWhile isDigitOrLow)
     | _ => false) ||
    (match unsigned with
     | c :: rest =>
       let tail := rest.dropWhile isDigitOrLow
       c.isDigit &&
         ((match tail with
           | '.' :: more => isExponent (more.dropWhile isDigitOrLow)
           | _ => false) ||
          sixtieths isPointAndDigits tail)
     | [] => false)

end Tag

end Verdict.Yaml
