import Verdict.Rule.Expression
/-!
# Linting rules

Lint finds what is wrong with a rule before anything is evaluated: a second combinator, a predicate
name that is no name, a name that no predicate has. A second combinator is reported alone, since the
operands are then not what was meant. Lint has a list of names of its own and asks no predicate.
-/

namespace Verdict

/-- What is wrong with a rule. -/
inductive RuleProblem where
  /-- No predicate has the name. -/
  | unknownName (name : String)
  /-- The right operand holds another combinator. -/
  | secondCombinator
  /-- The operand starts with something that is no name. -/
  | malformedName (operand : String)
  deriving DecidableEq, Repr

namespace RuleProblem

/-- The code of a problem. -/
def code : RuleProblem → String
  | .unknownName _ => "RULE001"
  | .secondCombinator => "RULE002"
  | .malformedName _ => "RULE003"

/-- The words of a problem. -/
def message : RuleProblem → String
  | .unknownName name => "unknown predicate '" ++ name ++ "'"
  | .secondCombinator => "only one combinator ('&&' or '||') is allowed per expression"
  | .malformedName operand => "malformed predicate name in '" ++ operand ++ "'"

end RuleProblem

/-- The names that lint knows. -/
def predicateNames : List String :=
  ["always", "never", "random", "sometimes", "days", "months", "weekday", "weekend", "exists", "eq",
    "neq", "lt", "lte", "gt", "gte", "env"]

/-- Whether a character may stand in a predicate name: an ASCII letter, an ASCII digit or `_`. -/
def isNameChar (c : Char) : Bool := c.isAlphanum || c = '_'

/-- Whether a text is a predicate name in form. -/
def isWellFormedName (s : String) : Bool :=
  !s.toList.isEmpty && s.toList.all isNameChar

/-- What is wrong with an operand, if anything. -/
def lintOperand (operand : String) : List RuleProblem :=
  let name := (Clause.parse operand).name
  if !isWellFormedName name then [.malformedName (Text.trim operand)]
  else if name ∈ predicateNames then []
  else [.unknownName name]

/-- What is wrong with a rule, left operand first. -/
def lint (rule : String) : List RuleProblem :=
  match Expression.split rule with
  | .single text => lintOperand text
  | .compound left _ right =>
    if Combinator.occursIn right then [.secondCombinator]
    else lintOperand left ++ lintOperand right

end Verdict
