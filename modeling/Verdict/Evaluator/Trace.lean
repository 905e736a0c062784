import Verdict.Rule.Expression
import Verdict.Fault
/-!
# Outcomes, logs and random bits

An evaluation ends in an answer or a failure, leaves a log, and takes a number of bits from a source
of random bits. The source is a function from positions to bits, so an evaluation that follows
another one reads the same source from where the first stopped.
-/

namespace Verdict

/-- A source of random bits, by position. -/
abbrev Bits := Nat → Bool

/-- The source from a later position on. -/
def Bits.from (bits : Bits) (n : Nat) : Bits := fun i => bits (n + i)

/-- Something that is worth a line in a log. -/
inductive Event where
  /-- A clause was decided. -/
  | decided (clause : String) (result : Bool)
  /-- The right operand was not needed. -/
  | skipped (op : Combinator) (right : String)
  /-- A configuration was read, with so many rules. -/
  | loaded (path : String) (rules : Nat)
  deriving DecidableEq, Repr

/-- The words of an event. -/
def Event.message : Event → String
  | .decided clause result =>
    "Clause '" ++ clause ++ "' -> " ++ (if result then "True" else "False")
  | .skipped op right =>
    "Short-circuit: skipped '" ++ right ++ "' after " ++
      (match op with
       | .and => "false AND operand"
       | .or => "true OR operand")
  | .loaded path rules => "Loaded config from " ++ path ++ " (" ++ toString rules ++ " rules)"

/-- The line of an event in a log. -/
def Event.line (e : Event) : String := "DEBUG " ++ e.message

/-- How an evaluation ends: its answer or failure, its log, and how many bits it took. -/
structure Outcome (ε α : Type) where
  /-- The answer or the failure. -/
  result : Except (Failure ε) α
  /-- The events in order. -/
  log : List Event
  /-- The number of bits taken. -/
  drawn : Nat

namespace Outcome

variable {ε α β : Type}

/-- The outcome that gives an answer and does nothing else. -/
def pure (a : α) : Outcome ε α := ⟨.ok a, [], 0⟩

/-- The outcome of going on after an answer with `next`; after a failure nothing follows. -/
def andThen (first : Outcome ε α) (next : α → Outcome ε β) : Outcome ε β :=
  match first.result with
  | .error e => ⟨.error e, first.log, first.drawn⟩
  | .ok a =>
    let second := next a
    ⟨second.result, first.log ++ second.log, first.drawn + second.drawn⟩

/-- The outcome with its answer changed by a function. -/
def map (f : α → β) (o : Outcome ε α) : Outcome ε β := ⟨o.result.map f, o.log, o.drawn⟩

/-- A failure ends the whole. -/
theorem andThen_of_error {first : Outcome ε α} {e : Failure ε} (next : α → Outcome ε β)
    (h : first.result = .error e) : first.andThen next = ⟨.error e, first.log, first.drawn⟩ := by
  simp [andThen, h]

/-- After an answer, logs and draws add up. -/
theorem andThen_of_ok {first : Outcome ε α} {a : α} (next : α → Outcome ε β)
    (h : first.result = .ok a) :
    first.andThen next =
      ⟨(next a).result, first.log ++ (next a).log, first.drawn + (next a).drawn⟩ := by
  simp [andThen, h]

end Outcome

end Verdict
