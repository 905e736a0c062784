import Verdict.Text.Case
import Verdict.Value.Display
/-!
# Comparing values with literals

A clause compares a stored value with a literal, which is text. Where both are numbers they are
compared as numbers; a truth value is compared with the usual spellings of true and false; otherwise
the literal is compared with what the value says. Only numbers and texts have an order.
-/

namespace Verdict

open Text

/-- Why a stored value cannot be ordered against a literal. -/
inductive OrderError where
  /-- The value is a number, shown here, and the literal is none. -/
  | notNumeric (literal : String) (shown : String)
  /-- Values of this type have no order. -/
  | unordered (typeName : String)
  deriving DecidableEq, Repr

/-- The words of an order error. -/
def OrderError.message : OrderError → String
  | .notNumeric literal shown =>
    "'" ++ literal ++ "' is not numeric but the stored value " ++ shown ++ " is"
  | .unordered typeName => "Cannot order a value of type " ++ typeName

/-- The spellings of true. -/
def trueSpellings : List String := ["true", "1", "yes", "on"]

/-- The spellings of false; an empty literal is one of them. -/
def falseSpellings : List String := ["false", "0", "no", "off", ""]

namespace Value

/-- The number that a value is or, for a text, writes. Truth values are no numbers. -/
def toNumber? : Value → Option Number
  | .int n => some (.int n)
  | .float x => some (.float x)
  | .text s => Number.ofText? s
  | _ => none

/-- Whether a value counts as empty: nothing, false, a zero, the texts `""` and `"0"`, and every
collection without items. -/
def isEmpty : Value → Bool
  | .null => true
  | .bool b => !b
  | .int n => n = 0
  | .float x => x.isZero
  | .text s => s = "" || s = "0"
  | .list xs | .tuple xs | .set xs | .frozenset xs => xs.isEmpty
  | .map es => es.isEmpty
  | .bytes _ | .date _ | .moment _ | .enclosing _ _ => false

/-- Whether a literal spells a truth value. -/
def spells (b : Bool) (literal : String) : Bool :=
  (if b then trueSpellings else falseSpellings).contains (lowered (trim literal))

/-- Whether a stored value is equal to a literal. -/
def equals (stored : Value) (literal : String) : Except Fault Bool :=
  match stored with
  | .bool b => .ok (spells b literal)
  | .null => .ok (literal = "")
  | v =>
    match v.toNumber?, Number.ofText? literal with
    | some x, some y => .ok (x.equal y)
    | _, _ => v.toText.map (· = literal)

/-- The order of two numbers; one that is not comparable is on a level with every other. -/
def orderNumbers (x y : Number) : Ordering := (x.order? y).getD .eq

/-- The order of a stored value against a literal. -/
def order (stored : Value) (literal : String) : Except (Failure OrderError) Ordering :=
  match stored.toNumber? with
  | some x =>
    match Number.ofText? literal with
    | some y => .ok (orderNumbers x y)
    | none =>
      -- the message shows the stored value, and that can fail
      match stored.shown with
      | .ok s => .error (.declared (.notNumeric literal s))
      | .error f => .error (.fault f)
  | none =>
    match stored with
    | .text s => .ok (compare s literal)
    | v => .error (.declared (.unordered v.typeName))

end Value

end Verdict
