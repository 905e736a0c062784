import Verdict.Value.Comparison
/-!
# Errors of predicates

A predicate fails for a name that does not exist, a key that is not there, a wrong number of
arguments, a weekday or month that cannot be read, or two values without an order. An error of a
clause is such an error together with the clause.
-/

namespace Verdict

/-- Why a predicate gives no answer. -/
inductive PredicateError where
  /-- No predicate has the name. -/
  | unknownName (name : String)
  /-- The context has no such key. -/
  | missingKey (key : String)
  /-- The predicate takes another number of arguments. -/
  | wrongCount (name : String) (expected given : Nat)
  /-- The predicate takes at least one argument and was given none. -/
  | noArguments (name : String)
  /-- A weekday or month number lies outside its range. -/
  | outOfRange (label : String) (last number : Nat)
  /-- A text names no weekday or month. -/
  | unrecognized (label text : String)
  /-- A stored value has no order against the literal. -/
  | order (error : OrderError)
  deriving DecidableEq, Repr

/-- The words of a predicate error. -/
def PredicateError.message : PredicateError → String
  | .unknownName name => "Unknown predicate '" ++ name ++ "'"
  | .missingKey key => "Key '" ++ key ++ "' not provided"
  | .wrongCount name expected given =>
    name ++ " expects " ++ toString expected ++
      (if expected = 1 then " argument" else " arguments") ++ ", got " ++ toString given
  | .noArguments name => name ++ " expects at least 1 argument(s), got 0"
  | .outOfRange label last number =>
    label ++ " number must be between 1 and " ++ toString last ++ ", got " ++ toString number
  | .unrecognized label text => "Unrecognized " ++ label ++ " name '" ++ text ++ "'"
  | .order error => error.message

/-- A clause that could not be evaluated, and why. -/
structure ClauseError where
  /-- The clause as it stands in the rule. -/
  clause : String
  /-- Why its predicate gave no answer. -/
  cause : PredicateError
  deriving DecidableEq, Repr

/-- The words of a clause error. -/
def ClauseError.message (e : ClauseError) : String :=
  "Invalid clause '" ++ e.clause ++ "': " ++ e.cause.message

end Verdict
