import Verdict.Numeric.Shortest
import Verdict.Value.Basic
/-!
# Showing values

`toText` is what a value says by itself; `shown` is how it stands in a message or inside a
collection, where texts are quoted and dates spelled out. Collections are in brackets of their own
kind with their items shown between commas, and dots stand for a collection inside itself. An
integer with more digits than the limit cannot be written.

The items of a set are shown in the order in which the set has them here, where a set as such has no
order.
-/

namespace Verdict.Value

/-- Items between commas. -/
def commaSeparated (items : List String) : String := ", ".intercalate items

mutual

/-- How a value is shown in a message or in a collection. -/
def shown : Value → Except Fault String
  | .null => .ok "None"
  | .bool b => .ok (if b then "True" else "False")
  | .int n => integerText? n
  | .float x => .ok x.text
  | .text s => .ok (Text.quoted s)
  | .list xs => do return "[" ++ commaSeparated (← shownAll xs) ++ "]"
  | .map es => do return "\x7b" ++ commaSeparated (← shownPairs es) ++ "\x7d"
  | .tuple xs => do
    match ← shownAll xs with
    | [x] => return "(" ++ x ++ ",)"
    | ts => return "(" ++ commaSeparated ts ++ ")"
  | .set xs => do
    match ← shownAll xs with
    | [] => return "set()"
    | ts => return "\x7b" ++ commaSeparated ts ++ "\x7d"
  | .frozenset xs => do
    match ← shownAll xs with
    | [] => return "frozenset()"
    | ts => return "frozenset(\x7b" ++ commaSeparated ts ++ "\x7d)"
  | .bytes bs => .ok (Text.quotedBytes bs)
  | .date d =>
    .ok ("datetime.date(" ++
      commaSeparated [toString d.year, toString d.month, toString d.day] ++ ")")
  | .moment m => .ok m.shown
  | .enclosing _ isMap => .ok (if isMap then "\x7b...\x7d" else "[...]")

/-- How the items of a collection are shown, in order. -/
def shownAll : List Value → Except Fault (List String)
  | [] => .ok []
  | x :: xs => do return (← shown x) :: (← shownAll xs)

/-- How the entries of a mapping are shown, in order. -/
def shownPairs : List (Value × Value) → Except Fault (List String)
  | [] => .ok []
  | (k, v) :: es => do return ((← shown k) ++ ": " ++ (← shown v)) :: (← shownPairs es)

end

/-- What a value says by itself. -/
def toText : Value → Except Fault String
  | .text s => .ok s
  | .date d => .ok d.text
  | .moment m => .ok (m.textWith " ")
  | v => shown v

end Verdict.Value
