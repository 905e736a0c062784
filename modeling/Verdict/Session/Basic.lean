import Verdict.Evaluator.Source
/-!
# Sessions

A session is a caller who keeps context data and settings that change, a clock that moves on each
time it is asked, and one source of random bits, and who makes evaluators over time and asks them.
An evaluator takes over data, settings and date when it is made: what the caller changes later does
not reach it, and it asks the clock once.
-/

namespace Verdict

/-- What a caller does. -/
inductive Step where
  /-- Makes an evaluator, which becomes the current one. -/
  | make
  /-- Goes back to an evaluator made before. -/
  | use (index : Nat)
  /-- Changes the value of a key of the data. -/
  | setData (key : String) (value : Value)
  /-- Removes a key from the data. -/
  | eraseData (key : String)
  /-- Changes a setting. -/
  | setSetting (key value : Value)
  /-- Evaluates a rule. -/
  | evaluate (rule : String)
  /-- Evaluates a clause. -/
  | clause (clause : String)
  /-- Asks a predicate. -/
  | call (name : String) (args : List String)
  /-- Tries to write to the data of the current evaluator. -/
  | assign (key : String) (value : Value)
  /-- Looks at the current evaluator. -/
  | context

/-- What a step answers. -/
inductive StepResult where
  /-- Nothing. -/
  | silent
  /-- The number of the current evaluator. -/
  | index (n : Nat)
  /-- The result of a rule or a clause. -/
  | evaluated (result : Except (Failure ClauseError) Bool)
  /-- The result of a predicate. -/
  | called (result : Except (Failure PredicateError) Bool)
  /-- An evaluator's data cannot be written. -/
  | readOnly
  /-- The data and the date of an evaluator. -/
  | state (data : Table Value) (today : Date)
  /-- No evaluator could be made, or none is there. -/
  | failed (fault : Option Fault)

/-- What a step answers, and the lines it logs. -/
structure StepAnswer where
  /-- The answer. -/
  result : StepResult
  /-- The events in order. -/
  log : List Event

/-- A caller and the evaluators made so far. -/
structure Session where
  /-- The caller's data. -/
  data : Table Value
  /-- The caller's settings. -/
  settings : List (Value × Value)
  /-- How often the clock was asked. -/
  asked : Nat
  /-- How many random bits were taken. -/
  drawn : Nat
  /-- The evaluators in the order in which they were made. -/
  evaluators : List Evaluator
  /-- The number of the current one. -/
  current : Nat

namespace Session

/-- A caller with data and settings who has done nothing yet. -/
def start (data : Table Value) (settings : List (Value × Value)) : Session :=
  ⟨data, settings, 0, 0, [], 0⟩

/-- The session after the current evaluator has been asked. -/
def ask {ε : Type} (s : Session) (bits : Bits)
    (question : Evaluator → Bits → Outcome ε Bool)
    (wrap : Except (Failure ε) Bool → StepResult) : Session × StepAnswer :=
  match s.evaluators[s.current]? with
  | none => (s, ⟨.failed none, []⟩)
  | some E =>
    let o := question E (bits.from s.drawn)
    ({ s with drawn := s.drawn + o.drawn }, ⟨wrap o.result, o.log⟩)

/-- The session after a step, and the step's answer. The clock reports `clock n` when it is asked
for the `n`th time, counted from 0. -/
def step (clock : Nat → Date) (bits : Bits) (s : Session) : Step → Session × StepAnswer
  | .make =>
    match Settings.ofEntries s.settings with
    | .error f => (s, ⟨.failed (some f), []⟩)
    | .ok settings =>
      let E := Evaluator.make s.data (.fixed (clock s.asked)) settings (clock s.asked) .empty
      ({ s with
          asked := s.asked + 1
          evaluators := s.evaluators ++ [E]
          current := s.evaluators.length },
        ⟨.index s.evaluators.length, []⟩)
  | .use index => ({ s with current := index }, ⟨.index index, []⟩)
  | .setData key value => ({ s with data := s.data.insert key value }, ⟨.silent, []⟩)
  | .eraseData key => ({ s with data := s.data.erase key }, ⟨.silent, []⟩)
  | .setSetting key value =>
    ({ s with settings := Value.putPair key value s.settings }, ⟨.silent, []⟩)
  | .evaluate rule => s.ask bits (fun E => E.evaluate rule) .evaluated
  | .clause clause => s.ask bits (fun E => E.evaluateClause clause) .evaluated
  | .call name args => s.ask bits (fun E => E.call name args) .called
  | .assign _ _ =>
    match s.evaluators[s.current]? with
    | none => (s, ⟨.failed none, []⟩)
    | some _ => (s, ⟨.readOnly, []⟩)
  | .context =>
    match s.evaluators[s.current]? with
    | none => (s, ⟨.failed none, []⟩)
    | some E => (s, ⟨.state E.data E.today, []⟩)

/-- The session after steps, and their answers in order. -/
def run (clock : Nat → Date) (bits : Bits) (s : Session) : List Step → Session × List StepAnswer
  | [] => (s, [])
  | t :: ts =>
    let (s, a) := s.step clock bits t
    let (s, as) := s.run clock bits ts
    (s, a :: as)

end Session

end Verdict
