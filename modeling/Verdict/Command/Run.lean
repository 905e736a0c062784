import Verdict.Command.Request
import Verdict.Config.Assignment
import Verdict.Config.Diagnose
import Verdict.Report.Json
import Verdict.Report.Text
/-!
# Running requests

A run turns a request and its surroundings into an exit code and two texts. The code is 0 when a
rule, or every rule, holds, 1 when it does not, and 2 when no answer can be given; the reason is
then on the error output, and nothing on the other. A log goes to the error output before that. Only
faults end a run without a code.

What does not belong to the program is around it: the file system with its paths, the reader of
documents, the environment of the process, today's date and the source of random bits. The arguments
are taken apart by a parser that may be any (`runWith`); `run` has the one of this library.
-/

namespace Verdict.Command

/-- What a run finds around it. -/
structure Surroundings where
  /-- The location that a path leads to, seen from the current directory. -/
  resolve : String → Except Fault Location
  /-- The files and directories. -/
  storage : Storage
  /-- The reader of documents on the command line. -/
  reader : Reader
  /-- The environment of the process. -/
  environment : Environment
  /-- Today's date. -/
  today : Date
  /-- The source of random bits. -/
  bits : Bits

/-- How a run ends. -/
structure Completion where
  /-- The exit code. -/
  exit : Nat
  /-- The text on the standard output. -/
  output : String
  /-- The text on the error output. -/
  errors : String
  deriving DecidableEq, Repr

/-- What a configured command answers: an exit code and a line, or a line of errors. -/
inductive Reply where
  /-- An answer on the standard output. -/
  | answer (exit : Nat) (line : String)
  /-- Why there is none, on the error output. -/
  | refusal (line : String)
  deriving DecidableEq, Repr

/-- The line for a configuration error. -/
def configRefusal (e : ConfigError) : Reply := .refusal ("Configuration error: " ++ e.message)

/-- The line for a clause error. -/
def clauseRefusal (e : ClauseError) : Reply := .refusal ("Evaluation error: " ++ e.message)

/-- The reply that is on a failed attempt's behalf, unless a fault ends the run. -/
def Failure.reply {ε : Type} (refuse : ε → Reply) : Failure ε → Except Fault Reply
  | .declared e => .ok (refuse e)
  | .fault f => .error f

/-- The completion of a run that replied and kept a log, which is shown if asked for. -/
def completion (verbose : Bool) (log : List Event) (r : Reply) : Completion :=
  let lines := if verbose then String.join (log.map fun e => e.line ++ "\n") else ""
  match r with
  | .answer exit line => ⟨exit, line ++ "\n", lines⟩
  | .refusal line => ⟨2, "", lines ++ line ++ "\n"⟩

/-! ## Reading what options say -/

/-- The locations of a root directory and of a configuration file, if one is named. -/
structure Site where
  /-- The root directory. -/
  root : Location
  /-- The configuration file that has to be there. Its path may lead nowhere, which is found out
  when the file is asked for. -/
  config : Except Fault (Option Location)

/-- The configuration file that a place names. The option for it without a value names the file of
the root directory. -/
def Place.named (resolve : String → Except Fault Location) (root : Location) (p : Place) :
    Except Fault (Option Location) :=
  match p.config with
  | none => .ok none
  | some none => .ok (some (root.child configName))
  | some (some path) => (resolve path).map some

/-- Where a place is. -/
def Place.site (resolve : String → Except Fault Location) (p : Place) : Except Fault Site :=
  match p.root with
  | none => .error .missingPath
  | some path => (resolve path).map fun root => ⟨root, p.named resolve root⟩

/-- The table that `read` makes of assignments. One that is missing is a fault, once those before it
have been read. -/
def allAssigned {α : Type} (read : List String → Except (Failure ConfigError) (Table α))
    (items : List (Option String)) : Except (Failure ConfigError) (Table α) := do
  let t ← read ((items.takeWhile Option.isSome).filterMap id)
  if items.all Option.isSome then return t else .error (.fault .missingAssignment)

/-- The date that the option for it says. Without a value it says an empty list, which is none. -/
def dateGiven (date : Option String) : Except (Failure ConfigError) (Option Date) :=
  readDate "--date" (date.elim (.list []) .text)

/-- The date that is configured, or the one that the arguments give, which wins. -/
def dateOf (configured : Option Date) :
    Option (Option String) → Except (Failure ConfigError) (Option Date)
  | none => .ok configured
  | some date => dateGiven date

namespace Surroundings

/-- The outcome of loading the configuration at a site. -/
def load (s : Surroundings) (site : Site) : Outcome ConfigError Config :=
  match site.config with
  | .error f => ⟨.error (.fault f), [], 0⟩
  | .ok named => loadConfig s.storage site.root named

/-- The file that a diagnosis asks for. Without a root directory there is none. -/
def askedFor (s : Surroundings) (site : Site) : Except Fault (Option Location) :=
  if (s.storage site.root).isDirectory then site.config else .ok none

/-- The diagnostics of the configuration at a site. -/
def diagnostics (s : Surroundings) (site : Site) : Except Fault (List Diagnostic) := do
  preflight s.storage site.root (← s.askedFor site)

/-- The settings that are configured with those of the arguments, which win. Without any, the
arguments leave them as they are; otherwise those of the process stand in where there are none. -/
def settingsOf (s : Surroundings) (configured : Option (Table String))
    (settings : List (Option String)) : Except (Failure ConfigError) (Option (Table String)) :=
  if settings.isEmpty then .ok configured
  else (allAssigned (settingAssignments "--env") settings).map fun given =>
    some ((configured.getD s.environment.table).update given.entries)

/-- The configuration with the date and the settings of the arguments, which win. -/
def override (s : Surroundings) (c : Config) (date : Option (Option String))
    (settings : List (Option String)) : Except (Failure ConfigError) Config := do
  let today ← dateOf c.today date
  let env ← s.settingsOf c.env settings
  return { c with today, env }

/-- The evaluator over a configuration. -/
def evaluator (s : Surroundings) (c : Config) (extra : Table Value) : Evaluator :=
  c.evaluator extra s.today s.environment

/-- The evaluator that a configuration makes with what the arguments add to it. -/
def layered (s : Surroundings) (c : Config) (data settings : List (Option String))
    (date : Option (Option String)) : Except (Failure ConfigError) Evaluator := do
  let c ← s.override c date settings
  return s.evaluator c (← allAssigned (contextAssignments s.reader "--set") data)

/-- The reply for the result of a rule, and for its failure. -/
def ruleReply (result : Except (Failure ClauseError) Bool) : Except Fault Reply :=
  match result with
  | .ok b => .ok (.answer (if b then 0 else 1) (Report.resultText b))
  | .error e => Failure.reply clauseRefusal e

/-- Evaluates one rule. -/
def runEval (s : Surroundings) (site : Site) (rule : String) (data settings : List (Option String))
    (date : Option (Option String)) (verbose : Bool) : Except Fault Completion :=
  let loaded := s.load site
  match loaded.result with
  | .error e => (Failure.reply configRefusal e).map (completion verbose loaded.log)
  | .ok c =>
    -- the file is loaded before the arguments are read, so their refusals come behind its log
    match s.layered c data settings date with
    | .error e => (Failure.reply configRefusal e).map (completion verbose loaded.log)
    | .ok E =>
      let o := E.evaluate rule s.bits
      (ruleReply o.result).map (completion verbose (loaded.log ++ o.log))

/-- The rules with the given names, each once, or all if no names are given. -/
def selectRules (c : Config) (names : List String) : Except ConfigError (Table String) :=
  (if names.isEmpty then c.rules.keys else names).foldlM
    (fun t name => (c.rule name).map (t.insert name)) Table.empty

/-- The reply for the results of rules, and for their failure. -/
def reportReply (json : Bool) (today : Date)
    (results : Except (Failure ClauseError) (List RuleResult)) : Except Fault Reply :=
  match results with
  | .ok rs =>
    .ok (.answer (if allHold rs then 0 else 1)
      (if json then Report.json today rs else Report.text rs))
  | .error e => Failure.reply clauseRefusal e

/-- The completion of a run that found defects. -/
def defects (ds : List Diagnostic) : Completion := ⟨2, "", Diagnostic.format ds ++ "\n"⟩

/-- Evaluates rules of a configuration without defects. -/
def runCheck (s : Surroundings) (site : Site) (names : List String) (json verbose : Bool) :
    Except Fault Completion := do
  let ds ← s.diagnostics site
  if !ds.isEmpty then return defects ds
  else
    -- nothing is loaded and no rule is evaluated unless there are no defects
    let loaded := s.load site
    match loaded.result with
    | .error e => (Failure.reply configRefusal e).map (completion verbose loaded.log)
    | .ok c =>
      match selectRules c names with
      | .error e => return completion verbose loaded.log (configRefusal e)
      | .ok rules =>
        let E := s.evaluator c .empty
        let o := E.evaluateRules rules.entries s.bits
        (reportReply json E.today o.result).map (completion verbose (loaded.log ++ o.log))

/-- Looks for defects in a configuration. -/
def runValidate (s : Surroundings) (site : Site) : Except Fault Completion := do
  let ds ← s.diagnostics site
  if ds.isEmpty then return ⟨0, "Configuration is valid.\n", ""⟩ else return defects ds

/-- Runs a request. -/
def runRequest (s : Surroundings) (r : Request) : Except Fault Completion := do
  let site ← r.place.site s.resolve
  match r with
  | .eval _ rule data settings date verbose => s.runEval site rule data settings date verbose
  | .check _ names json verbose => s.runCheck site names json verbose
  | .validate _ => s.runValidate site

end Surroundings

/-! ## The program -/

/-- The name of the program. -/
def programName : String := "criteria"

/-- The version of the program. -/
def versionText : String := "0.1.0"

/-- How the program, or a command of it, is called in messages. -/
def calledName : Option CommandName → String
  | none => programName
  | some c => programName ++ " " ++ c.text

/-- The help on the program. -/
def helpText : String :=
  "usage: criteria [-h] [--version] \x7beval,check,validate-config\x7d ...\n\n" ++
  "CRITERIA: evaluate rule expressions against a context and today's date\n\n" ++
  "  eval EXPRESSION        evaluate one expression and print true or false\n" ++
  "  check [RULE ...]       evaluate named rules from the config file\n" ++
  "  validate-config        validate the configuration without evaluating\n"

/-- The completion of a run without a request. -/
def NoRequest.completion (n : NoRequest) : Completion :=
  match n.stop with
  | .help => ⟨0, helpText, ""⟩
  | .version => ⟨0, programName ++ " " ++ versionText ++ "\n", ""⟩
  | .usage e => ⟨2, "", calledName n.command ++ ": error: " ++ e.message ++ "\n"⟩

/-- Runs the program with the given arguments, which a parser takes apart. -/
def runWith (parser : List String → Except NoRequest Request) (s : Surroundings)
    (args : List String) : Except Fault Completion :=
  match parser args with
  | .error n => .ok n.completion
  | .ok request => s.runRequest request

/-- Runs the program with the given arguments. -/
def run (s : Surroundings) (args : List String) : Except Fault Completion :=
  runWith readRequest s args

end Verdict.Command
