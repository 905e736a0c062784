import Verdict.Text.Digit
import Verdict.Text.Quoted
/-!
# Command-line arguments

Arguments are sorted first and used afterwards. Behind `--` everything is an operand. Before it, an
argument that begins with a dash is an option if it is one by name, with or without a value behind
an equals sign, or if it abbreviates exactly one long option, or if its first letter is an option
and the rest is its value; numbers below zero and arguments with spaces are operands unless they are
options in one of these ways; a lone dash is an operand. What then begins with a dash is an option
that nobody knows. Letters of options that take no value may stand behind a single dash together,
also where an equals sign joins them to the first one.

Options are used from left to right, and operands are taken where they stand between them. A `--`
is dropped where it would be a value or an operand, so a value that is joined to its option may be
missing.

This is one way to take arguments apart. Parsers differ at the edges: some keep a `--` that is
joined to its option, and some refuse letters that an equals sign joins. How runs end is therefore
said for every parser (`Verdict.Command.runWith`).
-/

namespace Verdict.Command

/-- What an option does. -/
inductive OptionKind where
  /-- It asks for help and ends everything. -/
  | help
  /-- It asks for the version and ends everything. -/
  | version
  /-- It is given or not. -/
  | switch
  /-- It has a value. -/
  | value
  deriving DecidableEq, Repr

/-- An option of a command. -/
structure Flag where
  /-- Its names, the short one before the long one. -/
  names : List String
  /-- What it does. -/
  kind : OptionKind
  deriving DecidableEq, Repr

/-- How an option is called in messages. -/
def Flag.label (f : Flag) : String := "/".intercalate f.names

/-- Whether an option has a name. -/
def Flag.isNamed (f : Flag) (name : String) : Bool := f.names.contains name

/-- How many operands a command takes. -/
inductive OperandCount where
  /-- None. -/
  | none
  /-- Exactly one. -/
  | one
  /-- Any number. -/
  | many
  /-- One and, whatever they are, all arguments behind it. -/
  | rest
  deriving DecidableEq, Repr

/-- Why arguments are refused. -/
inductive UsageError where
  /-- An abbreviation stands for several options. -/
  | ambiguous (given : String) (names : List String)
  /-- An option has no value. -/
  | noValue (label : String)
  /-- An option that takes no value has one. -/
  | unusedValue (label value : String)
  /-- An operand is missing. -/
  | missing (operand : String)
  /-- An operand is none of the allowed ones. -/
  | badChoice (operand given : String) (allowed : List String)
  /-- Arguments are left over. -/
  | leftOver (arguments : List String)
  deriving DecidableEq, Repr

/-- The words of a usage error. -/
def UsageError.message : UsageError → String
  | .ambiguous given names =>
    "ambiguous option: " ++ given ++ " could match " ++ ", ".intercalate names
  | .noValue label => "argument " ++ label ++ ": expected one argument"
  | .unusedValue label value =>
    "argument " ++ label ++ ": ignored explicit argument " ++ Text.quoted value
  | .missing operand => "the following arguments are required: " ++ operand
  | .badChoice operand given allowed =>
    "argument " ++ operand ++ ": invalid choice: " ++ Text.quoted given ++ " (choose from " ++
      ", ".intercalate (allowed.map Text.quoted) ++ ")"
  | .leftOver arguments => "unrecognized arguments: " ++ " ".intercalate arguments

/-- Why reading arguments ends early. -/
inductive Stop where
  /-- Help is asked for. -/
  | help
  /-- The version is asked for. -/
  | version
  /-- The arguments are refused. -/
  | usage (error : UsageError)
  deriving DecidableEq, Repr

/-! ## Sorting arguments -/

/-- What an argument is. -/
inductive Role where
  /-- An operand. -/
  | operand
  /-- The first `--`. -/
  | separator
  /-- An option by one of its names, with the value that is joined to it. -/
  | option (flag : Flag) (name : String) (joined : Option (List Char))
  /-- An option that nobody knows. -/
  | unknown
  deriving DecidableEq, Repr

/-- An argument and what it is. -/
structure Argument where
  /-- The argument. -/
  text : String
  /-- What it is. -/
  role : Role
  deriving DecidableEq, Repr

/-- The option with a name. -/
def findFlag? (flags : List Flag) (name : String) : Option Flag :=
  flags.find? fun f => f.isNamed name

/-- All names of options, with their options. -/
def allNames (flags : List Flag) : List (String × Flag) :=
  flags.flatMap fun f => f.names.map fun n => (n, f)

/-- The characters before the first equals sign, and the value behind it if there is one. -/
def splitEquals (cs : List Char) : List Char × Option (List Char) :=
  match cs.dropWhile (· ≠ '=') with
  | [] => (cs, none)
  | _ :: value => (cs.takeWhile (· ≠ '='), some value)

/-- What an argument that begins with two dashes may abbreviate. -/
def longMatches (flags : List Flag) (cs : List Char) : List (String × Role) :=
  let (start, joined) := splitEquals cs
  (allNames flags).filterMap fun (n, f) =>
    if start.isPrefixOf n.toList then some (n, .option f n joined) else none

/-- What an argument that begins with one dash may mean: an option's letter and its value, or the
start of a name. -/
def shortMatches (flags : List Flag) (cs : List Char) : List (String × Role) :=
  (allNames flags).filterMap fun (n, f) =>
    if n.toList = cs.take 2 then some (n, .option f n (some (cs.drop 2)))
    else if cs.isPrefixOf n.toList then some (n, .option f n none)
    else none

/-- Whether characters are a dash and a number of digits with or without a point; a line feed may
stand at the end. -/
def isBelowZero (cs : List Char) : Bool :=
  match cs with
  | '-' :: rest =>
    let rest := if rest.getLast? = some '\n' then rest.dropLast else rest
    let behind := rest.dropWhile Text.isDecimalDigit
    match behind with
    | [] => !rest.isEmpty
    | '.' :: fraction => !fraction.isEmpty && fraction.all Text.isDecimalDigit
    | _ => false
  | _ => false

/-- What an argument before `--` is. -/
def roleOf (flags : List Flag) (arg : String) : Except UsageError Role :=
  match arg.toList with
  | [] => .ok .operand
  | d :: tail =>
    if d ≠ '-' then .ok .operand
    else
      match findFlag? flags arg with
      | some f => .ok (.option f arg none)
      | none =>
        if tail.isEmpty then .ok .operand
        else
          let (start, joined) := splitEquals (d :: tail)
          let name := String.ofList start
          match joined, findFlag? flags name with
          | some j, some f => .ok (.option f name (some j))
          | _, _ =>
            -- no option has the whole name: it is an abbreviation, or letters
            let found := if tail.head? = some '-' then longMatches flags (d :: tail)
              else shortMatches flags (d :: tail)
            match found with
            | _ :: _ :: _ => .error (.ambiguous arg (found.map Prod.fst))
            | [(_, role)] => .ok role
            -- nothing fits, and then what looks like a number or like a sentence is an operand
            | [] =>
              if isBelowZero (d :: tail) ∨ tail.contains ' ' then .ok .operand else .ok .unknown

/-- The arguments with what they are. -/
def sortArguments (flags : List Flag) : List String → Except UsageError (List Argument)
  | [] => .ok []
  | a :: as =>
    if a = "--" then .ok (⟨a, .separator⟩ :: as.map fun b => ⟨b, .operand⟩)
    else do
      let role ← roleOf flags a
      return ⟨a, role⟩ :: (← sortArguments flags as)

/-! ## Using arguments -/

/-- An option that was given, by its last name, with its value if it takes one and has one. -/
structure Given where
  /-- The last of the option's names. -/
  name : String
  /-- The value, which is missing where it was written as `--`. -/
  value : Option String
  deriving DecidableEq, Repr

/-- What arguments say. -/
structure Parsed where
  /-- The options in order. -/
  given : List Given
  /-- The operands, if they were there to be taken. -/
  operands : Option (List String)
  /-- The arguments that were not understood. -/
  extras : List String
  deriving DecidableEq, Repr

/-- What arguments say before any is used. -/
def Parsed.start : Parsed := ⟨[], none, []⟩

/-- Whether an argument is an option. -/
def Argument.isOption (a : Argument) : Bool :=
  match a.role with
  | .option _ _ _ | .unknown => true
  | _ => false

/-- Uses an option. -/
def Parsed.give (p : Parsed) (f : Flag) (value : Option String) : Except Stop Parsed :=
  match f.kind with
  | .help => .error .help
  | .version => .error .version
  | .switch | .value =>
    let value := value.filter (· ≠ "--")
    .ok { p with given := p.given ++ [⟨f.names.getLastD "", value⟩] }

/-- Uses options without values, one after the other. -/
def Parsed.giveAll (p : Parsed) : List Flag → Except Stop Parsed
  | [] => .ok p
  | f :: fs => do (← p.give f none).giveAll fs

/-- What the letters behind a single dash are. -/
structure Letters where
  /-- The options without values, in order. -/
  switches : List Flag
  /-- The option at the end that takes a value, and the value if it is joined. -/
  last : Option (Flag × Option (List Char))

/-- The options among the characters behind the name of an option. -/
def letters (flags : List Flag) : List Char → Flag → Except UsageError Letters
  | [], f => .ok (if f.kind = .value then ⟨[], some (f, none)⟩ else ⟨[f], none⟩)
  | x :: rest, f =>
    if f.kind = .value then .ok ⟨[], some (f, some (x :: rest))⟩
    else
      match findFlag? flags (String.ofList ['-', x]) with
      | none => .error (.unusedValue f.label (String.ofList (x :: rest)))
      | some g => (letters flags rest g).map fun l => { l with switches := f :: l.switches }

/-- The options that an option by a name and what is joined to it are. A long name is followed by no
letters. -/
def joinedOptions (flags : List Flag) (f : Flag) (isLong : Bool) :
    Option (List Char) → Except UsageError Letters
  | none => letters flags [] f
  | some cs =>
    if f.kind = .value then .ok ⟨[], some (f, some cs)⟩
    else if isLong ∨ cs.isEmpty then .error (.unusedValue f.label (String.ofList cs))
    else letters flags cs f

/-- The operands that can be taken here, and the arguments behind them. -/
def takeOperands (count : OperandCount) (as : List Argument) :
    Option (List Argument × List Argument) :=
  let isSeparator (a : Argument) : Bool := a.role = .separator
  let lead := as.takeWhile isSeparator
  match count, as.dropWhile isSeparator with
  | .none, _ => none
  | .one, a :: behind =>
    if a.isOption then none
    else some (lead ++ a :: behind.takeWhile isSeparator, behind.dropWhile isSeparator)
  | .one, [] => none
  | .many, _ => some (as.takeWhile fun a => !a.isOption, as.dropWhile fun a => !a.isOption)
  -- the command with all that stands behind it, options among it
  | .rest, a :: _ => if a.isOption then none else some (as, [])
  | .rest, [] => none

/-- The texts of operands; the first `--` among them does not count, except before a command. -/
def operandTexts (count : OperandCount) (as : List Argument) : List String :=
  let texts := as.map Argument.text
  if count = .rest then texts else texts.erase "--"

/-- Uses the arguments from left to right. -/
def useArguments (flags : List Flag) (count : OperandCount) :
    Nat → List Argument → Parsed → Except Stop Parsed
  | 0, _, p => .ok p
  | _ + 1, [], p =>
    .ok (if count = .many ∧ p.operands.isNone then { p with operands := some [] } else p)
  | fuel + 1, a :: as, p =>
    match a.role with
    | .unknown => useArguments flags count fuel as { p with extras := p.extras ++ [a.text] }
    | .option f name joined => do
      let isLong := name.toList.drop 1 |>.head?.all (· = '-')
      let l ← (joinedOptions flags f isLong joined).mapError .usage
      match l.last with
      | some (g, some value) =>
        let p ← p.giveAll l.switches
        useArguments flags count fuel as (← p.give g (some (String.ofList value)))
      | some (g, none) =>
        -- the value is the next argument, unless that is taken for an option
        match as with
        | ⟨value, .operand⟩ :: behind =>
          let p ← p.giveAll l.switches
          useArguments flags count fuel behind (← p.give g (some value))
        | _ => .error (.usage (.noValue g.label))
      | none => useArguments flags count fuel as (← p.giveAll l.switches)
    -- operands are taken once, all that stand here; later ones are left over
    | _ =>
      match (if p.operands.isNone then takeOperands count (a :: as) else none) with
      | some (taken, behind) =>
        useArguments flags count fuel behind { p with operands := some (operandTexts count taken) }
      | none =>
        let skipped := (a :: as).takeWhile fun b => !b.isOption
        useArguments flags count fuel ((a :: as).dropWhile fun b => !b.isOption)
          { p with extras := p.extras ++ skipped.map Argument.text }

/-- What arguments say to a command with the given options and operands. -/
def parseArguments (flags : List Flag) (count : OperandCount) (args : List String) :
    Except Stop Parsed := do
  let as ← (sortArguments flags args).mapError .usage
  useArguments flags count (as.length + 1) as .start

end Verdict.Command
