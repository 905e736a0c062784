import Verdict.Value.Basic
/-!
# Parts of mappings

A value that stands in a mapping may hold that mapping once more. Taken out of the mapping it is
seen from itself: the mapping is put in where the value refers to it, and in the mapping that is put
in, the value refers back to itself. A value that does not lead out of itself is taken out as it is.

Two places of a document that share a value are two values here. So where a value is held in two
places and leads back to the document, it may be shown once more than a reader of the document would
show it.
-/

namespace Verdict.Value

/-- Whether a value is a mapping. -/
def isMapping : Value → Bool
  | .map _ => true
  | .enclosing _ isMap => isMap
  | _ => false

/-- The entries of a mapping, in which the value under a key is the one that stands `up` steps
around the mapping. -/
def marked (key : String) (up : Nat) (entries : List (Value × Value)) : List (Value × Value) :=
  entries.map fun e => if e.1.isText key then (e.1, .enclosing up e.2.isMapping) else e

mutual

/-- A value from below `depth` collections of what is taken out from under a key, with the mapping
put in. Tuples are not counted, since nothing refers to them. -/
def putIn (key : String) (entries : List (Value × Value)) (depth : Nat) : Value → Value
  | .enclosing up isMap =>
    if up < depth then .enclosing up isMap else .map (marked key depth entries)
  | .list xs => .list (putInAll key entries (depth + 1) xs)
  | .tuple xs => .tuple (putInAll key entries depth xs)
  | .map es => .map (putInEntries key entries (depth + 1) es)
  | v => v

/-- The values of a row with the mapping put in. -/
def putInAll (key : String) (entries : List (Value × Value)) (depth : Nat) :
    List Value → List Value
  | [] => []
  | x :: xs => putIn key entries depth x :: putInAll key entries depth xs

/-- The values of entries with the mapping put in. No key leads anywhere. -/
def putInEntries (key : String) (entries : List (Value × Value)) (depth : Nat) :
    List (Value × Value) → List (Value × Value)
  | [] => []
  | (k, v) :: es => (k, putIn key entries depth v) :: putInEntries key entries depth es

end

/-- A value that stands under a key of a mapping, seen from itself. -/
def taken (key : String) (entries : List (Value × Value)) (v : Value) : Value :=
  v.putIn key entries 0

/-- The values of a mapping whose keys are texts, each seen from itself. -/
def eachTaken (members : List (String × Value)) : List (String × Value) :=
  members.map fun e => (e.1, e.2.taken e.1 (members.map fun e => (.text e.1, e.2)))

end Verdict.Value
