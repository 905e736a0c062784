/-!
# Predicates

There are sixteen predicates, and each has one name. Two of them, `random` and `sometimes`, ask the
same question.
-/

namespace Verdict

/-- What a clause can ask. -/
inductive Predicate where
  /-- Nothing: it holds. -/
  | always
  /-- Nothing: it does not hold. -/
  | never
  /-- Whether the next random bit is set. -/
  | random
  /-- Whether the next random bit is set. -/
  | sometimes
  /-- Whether today is one of the given weekdays. -/
  | days
  /-- Whether today lies in one of the given months. -/
  | months
  /-- Whether today is a day from Monday to Friday. -/
  | weekday
  /-- Whether today is a Saturday or a Sunday. -/
  | weekend
  /-- Whether a key is there and its value is not empty. -/
  | present
  /-- Whether a stored value is equal to a literal. -/
  | eq
  /-- Whether a stored value differs from a literal. -/
  | neq
  /-- Whether a stored value is below a literal. -/
  | lt
  /-- Whether a stored value is a literal or below it. -/
  | lte
  /-- Whether a stored value is above a literal. -/
  | gt
  /-- Whether a stored value is a literal or above it. -/
  | gte
  /-- Whether an environment setting is one of the given texts. -/
  | env
  deriving DecidableEq, Repr

namespace Predicate

/-- The name of a predicate. -/
def name : Predicate → String
  | .always => "always"
  | .never => "never"
  | .random => "random"
  | .sometimes => "sometimes"
  | .days => "days"
  | .months => "months"
  | .weekday => "weekday"
  | .weekend => "weekend"
  | .present => "exists"
  | .eq => "eq"
  | .neq => "neq"
  | .lt => "lt"
  | .lte => "lte"
  | .gt => "gt"
  | .gte => "gte"
  | .env => "env"

/-- All predicates. -/
def all : List Predicate :=
  [.always, .never, .random, .sometimes, .days, .months, .weekday, .weekend, .present, .eq, .neq,
    .lt, .lte, .gt, .gte, .env]

/-- The predicate with a name. -/
def ofName? (s : String) : Option Predicate :=
  all.find? fun p => p.name = s

/-- No two predicates share a name. -/
theorem name_injective {p q : Predicate} (h : p.name = q.name) : p = q := by
  cases p <;> cases q <;> first | rfl | simp [name] at h

@[simp] theorem ofName?_name (p : Predicate) : ofName? p.name = some p := by
  cases p <;> decide

/-- A predicate that is found by a name has that name. -/
theorem name_of_ofName? {s : String} {p : Predicate} (h : ofName? s = some p) : p.name = s := by
  simpa using List.find?_some h

end Predicate

end Verdict
