import Verdict.Evaluator.Lookup
import Verdict.Evaluator.Trace
import Verdict.Predicate.Basic
import Verdict.Predicate.CalendarPart
/-!
# Evaluating rules

An evaluator holds everything that a predicate may read: the context data, today's date and the
lookup of environment settings. It never changes, so every rule evaluated on it sees the same day
and the same data. What an evaluation takes from outside is random bits, and the answers or failures
of the lookup.

The left operand of a combinator is always evaluated; the right one only when the left one leaves
the answer open.
-/

namespace Verdict

/-- What the predicates of a rule may read. -/
structure Evaluator where
  /-- The context data. -/
  data : Table Value
  /-- Today's date. -/
  today : Date
  /-- The lookup of environment settings. -/
  env : Lookup

namespace Evaluator

/-- What a predicate answers: yes or no, or why not. -/
abbrev Answer := Except (Failure PredicateError) Bool

/-- The answer of `decide` if the predicate was given `expected` arguments. -/
def withCount (p : Predicate) (expected : Nat) (args : List String) (decide : Answer) : Answer :=
  if args.length = expected then decide
  else .error (.declared (.wrongCount p.name expected args.length))

/-- What `use` makes of the value stored under a key. -/
def withValue (E : Evaluator) (key : String) (use : Value → Answer) : Answer :=
  match E.data.find? key with
  | some v => use v
  | none => .error (.declared (.missingKey key))

/-- The answer of a predicate that compares the value of a key, its first argument, with a literal,
its second. -/
def comparing (E : Evaluator) (p : Predicate) (args : List String)
    (compare : Value → String → Answer) : Answer :=
  match args with
  | [key, literal] => E.withValue key fun v => compare v literal
  | _ => .error (.declared (.wrongCount p.name 2 args.length))

/-- Whether a stored value equals a literal. -/
def equalTo (v : Value) (literal : String) : Answer := orFault (v.equals literal)

/-- Whether the order of a stored value against a literal is one of those that `accept` takes. -/
def ordered (accept : Ordering → Bool) (v : Value) (literal : String) : Answer :=
  match v.order literal with
  | .ok o => .ok (accept o)
  | .error e => .error (e.map .order)

/-- Whether a number is among those that the arguments name. -/
def among (p : Predicate) (part : CalendarPart) (number : Nat) (args : List String) : Answer :=
  if args.isEmpty then .error (.declared (.noArguments p.name))
  else (part.readAll args).map fun ns => ns.contains number

/-- Whether today is a Saturday or a Sunday. -/
def isWeekend (E : Evaluator) : Bool := E.today.weekday = 6 || E.today.weekday = 7

/-- Whether the setting that the first argument names is one of the other arguments. Without other
arguments it is not looked up. -/
def settingAmong (E : Evaluator) : List String → Except Fault Bool
  | [] | [_] => .ok false
  | name :: accepted =>
    (E.env.find? name).map fun current => current.any accepted.contains

/-- The answer of a predicate, `bit` being the next random bit. -/
def answer (E : Evaluator) (p : Predicate) (args : List String) (bit : Bool) : Answer :=
  match p with
  | .always => withCount p 0 args (.ok true)
  | .never => withCount p 0 args (.ok false)
  | .random | .sometimes => withCount .random 0 args (.ok bit)
  | .days => among p .day E.today.weekday args
  | .months => among p .month E.today.month args
  | .weekday => withCount p 0 args (.ok !E.isWeekend)
  | .weekend => withCount p 0 args (.ok E.isWeekend)
  | .present =>
    match args with
    | [key] => .ok ((E.data.find? key).any fun v => !v.isEmpty)
    | _ => .error (.declared (.wrongCount p.name 1 args.length))
  | .eq => E.comparing p args equalTo
  | .neq => E.comparing p args fun v literal => (equalTo v literal).map (!·)
  | .lt => E.comparing p args (ordered fun o => o.isLT)
  | .lte => E.comparing p args (ordered fun o => o.isLE)
  | .gt => E.comparing p args (ordered fun o => o.isGT)
  | .gte => E.comparing p args (ordered fun o => o.isGE)
  | .env => orFault (E.settingAmong args)

/-- How many random bits a predicate takes: one if it asks for chance and has no arguments. -/
def draws (p : Predicate) (args : List String) : Nat :=
  if (p = .random ∨ p = .sometimes) ∧ args = [] then 1 else 0

/-- The outcome of asking the predicate with a name. -/
def call (E : Evaluator) (name : String) (args : List String) (bits : Bits) :
    Outcome PredicateError Bool :=
  match Predicate.ofName? name with
  | none => ⟨.error (.declared (.unknownName name)), [], 0⟩
  | some p => ⟨E.answer p args (bits 0), [], draws p args⟩

/-- The outcome of evaluating a clause. -/
def evaluateClause (E : Evaluator) (clause : String) (bits : Bits) : Outcome ClauseError Bool :=
  let parsed := Clause.parse clause
  let called := E.call parsed.name parsed.args bits
  match called.result with
  | .ok b => ⟨.ok b, [.decided clause b], called.drawn⟩
  | .error e => ⟨.error (e.map fun cause => ⟨clause, cause⟩), [], called.drawn⟩

/-- The outcome of evaluating a rule. -/
def evaluate (E : Evaluator) (rule : String) (bits : Bits) : Outcome ClauseError Bool :=
  match Expression.split rule with
  | .single clause => E.evaluateClause clause bits
  | .compound left op right =>
    let first := E.evaluateClause left bits
    first.andThen fun b =>
      -- the right operand is not even parsed if the left one decides
      if b = op.deciding then ⟨.ok b, [.skipped op right], 0⟩
      else E.evaluateClause right (bits.from first.drawn)

end Evaluator

end Verdict
