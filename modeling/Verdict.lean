import Verdict.Command.Need
import Verdict.Main
import Verdict.Session.Basic
import Verdict.Proofs.Rule.Occurrence
import Verdict.Proofs.Attempt
import Verdict.Proofs.Evaluator.LongValue
import Verdict.Proofs.Evaluator.Answer
import Verdict.Proofs.Evaluator.Reach
import Verdict.Proofs.Rule.Lint
import Verdict.Proofs.Evaluator.DigitLimit
import Verdict.Proofs.Config.Findings
import Verdict.Proofs.Evaluator.SecondCombinator
import Verdict.Proofs.Evaluator.Composition
import Verdict.Proofs.Report.Sorting
import Verdict.Proofs.Config.Agreement
import Verdict.Proofs.Config.Faults
import Verdict.Proofs.Config.LoadFaults
import Verdict.Proofs.Report.Results
import Verdict.Proofs.Command.Assignments
import Verdict.Proofs.Command.Faults
import Verdict.Proofs.Command.ExitCode
import Verdict.Proofs.Command.Memory
import Verdict.Proofs.Command.Layers
import Verdict.Proofs.Evaluator.Footprint
import Verdict.Proofs.Evaluator.Chance
import Verdict.Proofs.Config.Rules
import Verdict.Proofs.Config.Entries
import Verdict.Proofs.Config.Taken
import Verdict.Proofs.Config.Order
import Verdict.Proofs.Config.Defects
import Verdict.Proofs.Config.Independence
import Verdict.Proofs.Report.Evaluations
import Verdict.Proofs.Report.Reading
import Verdict.Proofs.Report.Schema
import Verdict.Proofs.Command.Selection
import Verdict.Proofs.Command.Check
import Verdict.Proofs.Command.CheckAndEval
import Verdict.Proofs.Command.CheckSchema
import Verdict.Proofs.Command.Arguments
import Verdict.Proofs.Command.Verbose
import Verdict.Proofs.Session.Memory
import Verdict.Proofs.Session.Snapshot
import Verdict.Proofs.Numeric.ExactValue
import Verdict.Proofs.Evaluator.Comparison
import Verdict.Proofs.Numeric.Grammar
import Verdict.Proofs.Numeric.Reading
import Verdict.Proofs.Numeric.Rounding
import Verdict.Proofs.Text.Trimming
import Verdict.Proofs.Text.Case
import Verdict.Proofs.Rule.Splitting
import Verdict.Proofs.Rule.Rendering
import Verdict.Proofs.Evaluator.Blanks
import Verdict.Proofs.Evaluator.Refusal
import Verdict.Proofs.Numeric.Digits
import Verdict.Proofs.Numeric.Shortest
import Verdict.Proofs.Evaluator.Spelling
import Verdict.Proofs.Evaluator.Disjunction
import Verdict.Proofs.Evaluator.Interchange
import Verdict.Proofs.Evaluator.OwnText
import Verdict.Proofs.Numeric.Ascii
import Verdict.Proofs.Yaml.Word
import Verdict.Proofs.Yaml.Number
import Verdict.Proofs.Command.AssignedNumeral
import Verdict.Proofs.Calendar.Ordinal
import Verdict.Proofs.Calendar.Week
import Verdict.Proofs.Calendar.IsoText
import Verdict.Proofs.AttemptRow
import Verdict.Proofs.Report.Independence
import Verdict.Proofs.Config.Assignment
import Verdict.Proofs.Command.AssignedValue
import Verdict.Proofs.Report.Today
import Verdict.Proofs.Calendar.DateText
import Verdict.Proofs.Config.DateTexts
import Verdict.Proofs.Report.Columns
import Verdict.Proofs.Config.Settings
import Verdict.Proofs.Config.Matching
import Verdict.Proofs.Config.Suggestion
import Verdict.Proofs.Config.Preflight
import Verdict.Proofs.Text.Line
import Verdict.Proofs.Text.Shown
import Verdict.Proofs.Config.Lines
import Verdict.Proofs.Report.Grammar
import Verdict.Proofs.Report.Faithful
