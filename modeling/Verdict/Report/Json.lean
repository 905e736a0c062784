import Verdict.Report.Basic
/-!
# The JSON report

A JSON report is one object with the date, whether all rules hold, and the results in order. It is
laid out with two spaces for each level and the members of an object in the order of their names. A
text in it is ASCII: quotes and backslashes stand behind a backslash, line feed, carriage return,
tab, backspace and form feed have letters, and any other control character, DEL too, and every
character beyond ASCII is written as `\u` and four lower-case hexadecimal digits, in two such units
above U+FFFF.
-/

namespace Verdict

/-- A JSON document of truth values, texts, lists and objects. -/
inductive Json where
  /-- A truth value. -/
  | bool (value : Bool)
  /-- A text. -/
  | text (value : String)
  /-- Documents in a row. -/
  | list (items : List Json)
  /-- Documents under names. -/
  | object (members : List (String × Json))

namespace Json

/-! ## Texts -/

/-- A 16-bit unit as an escape. -/
def unitEscape (n : Nat) : List Char := '\\' :: 'u' :: Text.hexDigits 4 n

/-- A character inside quotes. -/
def charText (c : Char) : List Char :=
  if c = '"' then ['\\', '"']
  else if c = '\\' then ['\\', '\\']
  else if c = '\n' then ['\\', 'n']
  else if c = '\r' then ['\\', 'r']
  else if c = '\t' then ['\\', 't']
  else if c = '\x08' then ['\\', 'b']
  else if c = '\x0c' then ['\\', 'f']
  else
    let n := c.toNat
    if 32 ≤ n ∧ n < 127 then [c]
    else if n < 0x10000 then unitEscape n
    else unitEscape (0xD800 + (n - 0x10000) / 1024) ++ unitEscape (0xDC00 + (n - 0x10000) % 1024)

/-- A text in quotes. -/
def quote (s : String) : List Char := '"' :: s.toList.flatMap charText ++ ['"']

/-! ## Layout -/

/-- A line break and the indentation of a level. -/
def newline (level : Nat) : List Char := '\n' :: List.replicate (2 * level) ' '

/-- Items with commas between them. -/
def separated : List (List Char) → List Char
  | [] => []
  | [item] => item
  | item :: items => item ++ ',' :: separated items

/-- Items of a collection on lines of their own, between brackets; no items need no lines. -/
def bracketed (opening closing : Char) (level : Nat) (items : List (List Char)) : List Char :=
  if items.isEmpty then [opening, closing]
  else opening :: separated (items.map (newline (level + 1) ++ ·)) ++ newline level ++ [closing]

mutual

/-- The characters of a document that starts on a line of the given level. -/
def chars (level : Nat) : Json → List Char
  | .bool b => (if b then "true" else "false").toList
  | .text s => quote s
  | .list items => bracketed '[' ']' level (itemChars (level + 1) items)
  | .object members => bracketed '\x7b' '\x7d' level (memberChars (level + 1) members)

/-- The characters of each document of a list. -/
def itemChars (level : Nat) : List Json → List (List Char)
  | [] => []
  | j :: js => chars level j :: itemChars level js

/-- The characters of each member of an object. -/
def memberChars (level : Nat) : List (String × Json) → List (List Char)
  | [] => []
  | (name, j) :: ms => (quote name ++ ':' :: ' ' :: chars level j) :: memberChars level ms

end

/-- The text of a document. -/
def render (j : Json) : String := String.ofList (chars 0 j)

end Json

namespace Report

/-- The document of a result. -/
def resultJson (r : RuleResult) : Json :=
  .object [("expression", .text r.rule), ("result", .bool r.holds), ("rule", .text r.name)]

/-- The document of a report. -/
def document (today : Date) (results : List RuleResult) : Json :=
  .object [("passed", .bool (allHold results)), ("results", .list (results.map resultJson)),
    ("today", .text today.text)]

/-- The JSON report. -/
def json (today : Date) (results : List RuleResult) : String := (document today results).render

end Report

end Verdict
