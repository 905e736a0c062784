import Verdict.Calendar.Moment
import Verdict.Numeric.Number
/-!
# Values

A value is what a document or a caller puts into the context: nothing, a truth value, a number, a
text, bytes, a date, a moment, or a collection of values. A mapping keeps its entries in the order
in which its keys first came. Keys are compared by value: a truth value counts as the number 0 or 1,
numbers are the same when they have the same value, and `NaN` is the same as itself.
-/

namespace Verdict

/-- A value of the context or of a document. -/
inductive Value where
  /-- Nothing. -/
  | null
  /-- A truth value. -/
  | bool (value : Bool)
  /-- An integer. -/
  | int (value : Int)
  /-- A floating-point number. -/
  | float (value : Binary64)
  /-- A text. -/
  | text (value : String)
  /-- Values in a row. -/
  | list (items : List Value)
  /-- Values under keys, in order. -/
  | map (entries : List (Value × Value))
  /-- A row of values of fixed length. -/
  | tuple (items : List Value)
  /-- A collection without order. -/
  | set (items : List Value)
  /-- A collection without order that never changes. -/
  | frozenset (items : List Value)
  /-- Bytes. -/
  | bytes (value : List UInt8)
  /-- A date. -/
  | date (value : Date)
  /-- A moment. -/
  | moment (value : Moment)
  /-- A list or mapping in which this value stands, once more: the innermost one for 0, and the one
  `up` steps around that otherwise. -/
  | enclosing (up : Nat) (isMap : Bool)

namespace Value

instance : Inhabited Value := ⟨.null⟩

/-- The name of a value's type. -/
def typeName : Value → String
  | .null => "NoneType"
  | .bool _ => "bool"
  | .int _ => "int"
  | .float _ => "float"
  | .text _ => "str"
  | .list _ => "list"
  | .map _ => "dict"
  | .tuple _ => "tuple"
  | .set _ => "set"
  | .frozenset _ => "frozenset"
  | .bytes _ => "bytes"
  | .date _ => "date"
  | .moment _ => "datetime"
  | .enclosing _ isMap => if isMap then "dict" else "list"

/-- The number that a key counts as: a truth value is 0 or 1. -/
def keyNumber? : Value → Option Number
  | .bool b => some (.int (if b then 1 else 0))
  | .int n => some (.int n)
  | .float x => some (.float x)
  | _ => none

/-- Whether two numbers are the same as keys. -/
def sameNumber (x y : Number) : Bool :=
  x.equal y || (x = .float .nan && y = .float .nan)

mutual

/-- Whether two values are the same key. Lists, sets and mappings cannot be keys. -/
def same : Value → Value → Bool
  | .null, .null => true
  | .text s, .text t => s = t
  | .bytes s, .bytes t => s = t
  | .date d, .date e => d = e
  | .moment m, .moment n => m.same n
  | .tuple xs, .tuple ys => sameAll xs ys
  | .frozenset xs, .frozenset ys => sameAll xs ys
  | x, y =>
    match x.keyNumber?, y.keyNumber? with
    | some a, some b => sameNumber a b
    | _, _ => false

/-- Whether two rows of values are the same, place by place. -/
def sameAll : List Value → List Value → Bool
  | [], [] => true
  | x :: xs, y :: ys => same x y && sameAll xs ys
  | _, _ => false

end

/-- The entries after `key` has been given `value`: in place where the same key stands, which itself
stays, else at the end. -/
def putPair (key value : Value) : List (Value × Value) → List (Value × Value)
  | [] => [(key, value)]
  | e :: es => if e.1.same key then (e.1, value) :: es else e :: putPair key value es

/-- The entries that pairs make when written one after the other. -/
def ofPairs (pairs : List (Value × Value)) : List (Value × Value) :=
  pairs.foldl (fun es e => putPair e.1 e.2 es) []

/-- Whether the value is the given text. -/
def isText (s : String) : Value → Bool
  | .text t => s = t
  | _ => false

/-- The value under a text key. -/
def entry? (key : String) (entries : List (Value × Value)) : Option Value :=
  (entries.find? fun e => e.1.isText key).map Prod.snd

/-- The text of a value that is a text. -/
def asText? : Value → Option String
  | .text s => some s
  | _ => none

/-- Whether the value is a text. -/
def isString (v : Value) : Bool := v.asText?.isSome

end Value

end Verdict
