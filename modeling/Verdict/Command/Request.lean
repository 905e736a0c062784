import Verdict.Command.Arguments
/-!
# Requests

There are three commands: `eval` evaluates one rule, `check` evaluates rules of a configuration, and
`validate-config` looks for defects in one. The arguments of a program are a request to one of them,
or a question about the program, or they are refused.
-/

namespace Verdict.Command

/-- A command. -/
inductive CommandName where
  /-- Evaluate one rule. -/
  | eval
  /-- Evaluate rules of a configuration. -/
  | check
  /-- Look for defects in a configuration. -/
  | validate
  deriving DecidableEq, Repr

/-- What a command is called. -/
def CommandName.text : CommandName → String
  | .eval => "eval"
  | .check => "check"
  | .validate => "validate-config"

/-- What commands are called, in order. -/
def commandTexts : List String :=
  [CommandName.eval.text, CommandName.check.text, CommandName.validate.text]

/-- The command that is called by a text. -/
def CommandName.ofText? (s : String) : Option CommandName :=
  [eval, check, validate].find? fun c => c.text = s

/-- The option that asks for help. -/
def helpFlag : Flag := ⟨["-h", "--help"], .help⟩

/-- The options that say where the configuration is. -/
def placeFlags : List Flag := [⟨["-r", "--root"], .value⟩, ⟨["-c", "--config"], .value⟩]

/-- The option that asks for a log. -/
def verboseFlag : Flag := ⟨["-v", "--verbose"], .switch⟩

/-- The options in front of a command. -/
def programFlags : List Flag := [helpFlag, ⟨["--version"], .version⟩]

/-- The options of a command. -/
def CommandName.flags : CommandName → List Flag
  | .eval =>
    helpFlag :: placeFlags ++
      [⟨["-s", "--set"], .value⟩, ⟨["-e", "--env"], .value⟩, ⟨["-d", "--date"], .value⟩,
        verboseFlag]
  | .check => helpFlag :: placeFlags ++ [⟨["--json"], .switch⟩, verboseFlag]
  | .validate => helpFlag :: placeFlags

/-- The operands of a command. -/
def CommandName.operandCount : CommandName → OperandCount
  | .eval => .one
  | .check => .many
  | .validate => .none

/-- Where the configuration is, as the arguments say. The options for it may have lost their values.
-/
structure Place where
  /-- The path of the root directory. -/
  root : Option String
  /-- The path of the configuration file, if the option for it is given. -/
  config : Option (Option String)
  deriving DecidableEq, Repr

/-- A request to the program. -/
inductive Request where
  /-- To evaluate a rule with assignments to context data and to settings, on a given date. The
  options for these may have lost their values. -/
  | eval (place : Place) (rule : String) (data settings : List (Option String))
      (date : Option (Option String)) (verbose : Bool)
  /-- To evaluate rules by their names, or all. -/
  | check (place : Place) (names : List String) (json verbose : Bool)
  /-- To look for defects. -/
  | validate (place : Place)
  deriving DecidableEq, Repr

/-- Where the configuration of a request is. -/
def Request.place : Request → Place
  | .eval place _ _ _ _ _ => place
  | .check place _ _ _ => place
  | .validate place => place

/-- Why there is no request: which command the arguments were for, if any, and what ended them. -/
structure NoRequest where
  /-- The command. -/
  command : Option CommandName
  /-- What ended the arguments. -/
  stop : Stop
  deriving DecidableEq, Repr

namespace Parsed

/-- The values that were given to an option, in order. -/
def valuesOf (p : Parsed) (name : String) : List (Option String) :=
  (p.given.filter fun g => g.name = name).map Given.value

/-- The last value that was given to an option. -/
def value? (p : Parsed) (name : String) : Option (Option String) := (p.valuesOf name).getLast?

/-- Whether an option was given. -/
def has (p : Parsed) (name : String) : Bool := p.given.any fun g => g.name = name

/-- Where the configuration is; the root directory is the current one unless it is given. -/
def place (p : Parsed) : Place := ⟨(p.value? "--root").getD (some "."), p.value? "--config"⟩

end Parsed

/-- The request to a command that its arguments make. -/
def CommandName.request (c : CommandName) (p : Parsed) : Except Stop Request :=
  match c with
  | .eval =>
    match p.operands with
    | some [rule] =>
      .ok (.eval p.place rule (p.valuesOf "--set") (p.valuesOf "--env") (p.value? "--date")
        (p.has "--verbose"))
    | _ => .error (.usage (.missing "expression"))
  | .check => .ok (.check p.place (p.operands.getD []) (p.has "--json") (p.has "--verbose"))
  | .validate => .ok (.validate p.place)

/-- The request that the arguments of the program make. -/
def readRequest (args : List String) : Except NoRequest Request := do
  let p ← (parseArguments programFlags .rest args).mapError (NoRequest.mk none)
  match p.operands with
  | none | some [] => .error ⟨none, .usage (.missing "command")⟩
  | some (name :: rest) =>
    match CommandName.ofText? name with
    | none => .error ⟨none, .usage (.badChoice "command" name commandTexts)⟩
    | some c =>
      let q ← (parseArguments c.flags c.operandCount rest).mapError (NoRequest.mk (some c))
      let request ← (c.request q).mapError (NoRequest.mk (some c))
      if (p.extras ++ q.extras).isEmpty then return request
      else .error ⟨none, .usage (.leftOver (p.extras ++ q.extras))⟩

end Verdict.Command
