import Verdict.Report.Basic
/-!
# The text report

A text report has one line for each rule: the name, spaces up to the length of the longest name, two
spaces, and the result.
-/

namespace Verdict.Report

/-- How a result is written. -/
def resultText (b : Bool) : String := if b then "true" else "false"

/-- The characters of a text and spaces behind them up to a width. -/
def padded (width : Nat) (s : String) : String :=
  s ++ String.ofList (List.replicate (width - s.length) ' ')

/-- The length of the longest rule name. -/
def nameWidth (results : List RuleResult) : Nat :=
  results.foldl (fun w r => max w r.name.length) 0

/-- The line of a result. -/
def line (width : Nat) (r : RuleResult) : String :=
  padded width r.name ++ "  " ++ resultText r.holds

/-- The text report. -/
def text (results : List RuleResult) : String :=
  if results.isEmpty then "No rules configured."
  else "\n".intercalate (results.map (line (nameWidth results)))

end Verdict.Report
