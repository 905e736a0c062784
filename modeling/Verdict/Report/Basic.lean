import Verdict.Evaluator.Basic
/-!
# Rule results

All rules of a report are evaluated in order on one evaluator, so that they see the same day, and
the random bits one after the other. The first rule that fails ends the report.
-/

namespace Verdict

/-- The result of a named rule. -/
structure RuleResult where
  /-- The name of the rule. -/
  name : String
  /-- The rule. -/
  rule : String
  /-- Whether it holds. -/
  holds : Bool
  deriving DecidableEq, Repr

/-- The outcome of evaluating named rules in order. -/
def Evaluator.evaluateRules (E : Evaluator) :
    List (String × String) → Bits → Outcome ClauseError (List RuleResult)
  | [], _ => .pure []
  | (name, rule) :: rest, bits =>
    let first := E.evaluate rule bits
    first.andThen fun b =>
      (E.evaluateRules rest (bits.from first.drawn)).map fun rs => ⟨name, rule, b⟩ :: rs

/-- Whether all rules hold. -/
def allHold (results : List RuleResult) : Bool := results.all RuleResult.holds

end Verdict
