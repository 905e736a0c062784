import Verdict.Proofs.Evaluator.Composition
import Verdict.Proofs.Session.Memory
/-!
# Snapshots

An evaluator is what the caller had when it was made. `snapshots` finds this out from what the
caller did to data and settings alone, with no look at any evaluator, and `evaluators_run` says that
the evaluators of a session are these snapshots, each with the date that the clock gave when it was
asked for this one. So whatever else is done in between, a question to an evaluator is answered as
by one that is made anew, from the random bit at which the session stands. The bits that a session
takes are counted by the predicates that it comes to (`drawn_run`).

All of it is said of a session of any length by induction on its steps, from what one step does.
-/

namespace Verdict

/-! ## What the caller has -/

/-- What an evaluator is made from: the caller's data, and the settings that the caller's mapping
makes. -/
structure Snapshot where
  /-- The data. -/
  data : Table Value
  /-- The settings. -/
  settings : Settings

/-- A new evaluator over a snapshot, on a date. -/
def Snapshot.evaluator (c : Snapshot) (today : Date) : Evaluator :=
  .make c.data (.fixed today) c.settings today .empty

namespace Step

/-- The caller's data after a step. -/
def writeData (data : Table Value) : Step → Table Value
  | .setData key value => data.insert key value
  | .eraseData key => data.erase key
  | _ => data

/-- The caller's settings after a step. -/
def writeSettings (settings : List (Value × Value)) : Step → List (Value × Value)
  | .setSetting key value => Value.putPair key value settings
  | _ => settings

/-- What a step makes an evaluator from, if it makes one: there is none if the settings cannot be
written. -/
def snapshot? (data : Table Value) (settings : List (Value × Value)) : Step → Option Snapshot
  | .make =>
    match Settings.ofEntries settings with
    | .ok given => some ⟨data, given⟩
    | .error _ => none
  | _ => none

end Step

/-- What the evaluators of a session are made from, in order. -/
def snapshots : Table Value → List (Value × Value) → List Step → List Snapshot
  | _, _, [] => []
  | data, settings, t :: ts =>
    (t.snapshot? data settings).toList ++
      snapshots (t.writeData data) (t.writeSettings settings) ts

/-- What was made stays made. -/
theorem snapshots_prefix_append (data : Table Value) (settings : List (Value × Value))
    (ts us : List Step) : snapshots data settings ts <+: snapshots data settings (ts ++ us) := by
  induction ts generalizing data settings with
  | nil => exact List.nil_prefix
  | cons t ts ih =>
    rw [List.cons_append, snapshots, snapshots, List.prefix_append_right_inj]
    exact ih _ _

/-- New evaluators over snapshots, on the dates that the clock gives from the `n`th time on. -/
def freshEvaluators (clock : Nat → Date) (n : Nat) (made : List Snapshot) : List Evaluator :=
  made.mapIdx fun i c => c.evaluator (clock (n + i))

theorem length_freshEvaluators (clock : Nat → Date) (n : Nat) (made : List Snapshot) :
    (freshEvaluators clock n made).length = made.length :=
  List.length_mapIdx

theorem freshEvaluators_append (clock : Nat → Date) (n : Nat) (made more : List Snapshot) :
    freshEvaluators clock n (made ++ more) =
      freshEvaluators clock n made ++ freshEvaluators clock (n + made.length) more := by
  simp only [freshEvaluators, List.mapIdx_append, Nat.add_assoc, Nat.add_comm made.length]

/-! ## What is asked of an evaluator -/

/-- A predicate by its name, and what it is given. -/
abbrev PredicateCall := String × List String

/-- The call that a clause writes. -/
def Clause.callOf (clause : String) : PredicateCall :=
  ((Clause.parse clause).name, (Clause.parse clause).args)

/-- Whether a call asks for chance and has the arguments for it, which are none. -/
def PredicateCall.IsChance (c : PredicateCall) : Prop :=
  (c.1 = "random" ∨ c.1 = "sometimes") ∧ c.2 = []

instance (c : PredicateCall) : Decidable c.IsChance := inferInstanceAs (Decidable (_ ∧ _))

/-- A clause asks for chance as its call does. -/
theorem Clause.isChance_callOf (clause : String) :
    (callOf clause).IsChance ↔ Evaluator.AsksChance clause := Iff.rfl

namespace Step

/-- The answer of an evaluator to a step, if the step is put to an evaluator. -/
def answer? (E : Evaluator) (bits : Bits) : Step → Option StepAnswer
  | .evaluate rule => some ⟨.evaluated (E.evaluate rule bits).result, (E.evaluate rule bits).log⟩
  | .clause text =>
    some ⟨.evaluated (E.evaluateClause text bits).result, (E.evaluateClause text bits).log⟩
  | .call name args => some ⟨.called (E.call name args bits).result, (E.call name args bits).log⟩
  | .assign _ _ => some ⟨.readOnly, []⟩
  | .context => some ⟨.state E.data E.today, []⟩
  | _ => none

/-- The predicates that an evaluator comes to for a step, whether or not the step has an answer in
the end. -/
def calls (E : Evaluator) (bits : Bits) : Step → List PredicateCall
  | .evaluate rule => (E.reached rule bits).map Clause.callOf
  | .clause text => [Clause.callOf text]
  | .call name args => [(name, args)]
  | _ => []

end Step

namespace Session

variable {clock : Nat → Date} {bits : Bits}

/-- The predicates that the current evaluator comes to for a step. -/
def callsAt (bits : Bits) (s : Session) (t : Step) : List PredicateCall :=
  match s.evaluators[s.current]? with
  | some E => t.calls E (bits.from s.drawn)
  | none => []

/-- The predicates that a session comes to, in order. -/
def calls (clock : Nat → Date) (bits : Bits) (s : Session) : List Step → List PredicateCall
  | [] => []
  | t :: ts => s.callsAt bits t ++ (s.step clock bits t).1.calls clock bits ts

/-! ## One step -/

section Steps

variable (s : Session) (t : Step)

theorem data_step : (s.step clock bits t).1.data = t.writeData s.data := by
  cases t <;> simp only [step, ask, Step.writeData]
  all_goals try split
  all_goals rfl

theorem settings_step : (s.step clock bits t).1.settings = t.writeSettings s.settings := by
  cases t <;> simp only [step, ask, Step.writeSettings]
  all_goals try split
  all_goals rfl

/-- A step makes one evaluator or none. -/
theorem evaluators_step :
    (s.step clock bits t).1.evaluators =
      s.evaluators ++ freshEvaluators clock s.asked (t.snapshot? s.data s.settings).toList := by
  cases t <;> simp only [step, ask, Step.snapshot?]
  case make => cases Settings.ofEntries s.settings <;> simp [freshEvaluators, Snapshot.evaluator]
  all_goals try split
  all_goals simp [freshEvaluators]

/-- The clock is asked for an evaluator that is made, and for nothing else. -/
theorem asked_step :
    (s.step clock bits t).1.asked = s.asked + (t.snapshot? s.data s.settings).toList.length := by
  cases t <;> simp only [step, ask, Step.snapshot?]
  case make => cases Settings.ofEntries s.settings <;> rfl
  all_goals try split
  all_goals rfl

/-- A step that is put to an evaluator takes a bit for each predicate that it comes to and that asks
for chance. -/
theorem drawn_step :
    (s.step clock bits t).1.drawn =
      s.drawn + (s.callsAt bits t).countP fun c => PredicateCall.IsChance c := by
  unfold callsAt
  cases t <;> simp only [step, ask]
  case make => cases Settings.ofEntries s.settings <;> cases s.evaluators[s.current]? <;> rfl
  all_goals cases hE : s.evaluators[s.current]? with
    | none => rfl
    | some E => ?_
  case evaluate rule =>
    simp only [Step.calls, List.countP_map, Evaluator.drawn_evaluate, Function.comp_def,
      Clause.isChance_callOf]
  case clause text =>
    simp only [Step.calls, Evaluator.drawn_evaluateClause, List.countP_singleton,
      decide_eq_true_eq, Clause.isChance_callOf]
  case call name args =>
    simp only [Step.calls, Evaluator.drawn_call, List.countP_singleton, decide_eq_true_eq]
    rfl
  all_goals rfl

/-- A step that is put to the current evaluator has that evaluator's answer. -/
theorem answer_step {E : Evaluator} {a : StepAnswer} (hE : s.evaluators[s.current]? = some E)
    (ha : t.answer? E (bits.from s.drawn) = some a) : (s.step clock bits t).2 = a := by
  cases t <;> simp only [Step.answer?, Option.some.injEq, reduceCtorEq] at ha
  all_goals
    subst ha
    simp only [step, ask, hE]

end Steps

/-! ## Runs -/

section Runs

variable (clock : Nat → Date) (bits : Bits)

theorem run_cons (s : Session) (t : Step) (ts : List Step) :
    s.run clock bits (t :: ts) =
      (((s.step clock bits t).1.run clock bits ts).1,
        (s.step clock bits t).2 :: ((s.step clock bits t).1.run clock bits ts).2) := rfl

theorem run_append (s : Session) (ts us : List Step) :
    s.run clock bits (ts ++ us) =
      (((s.run clock bits ts).1.run clock bits us).1,
        (s.run clock bits ts).2 ++ ((s.run clock bits ts).1.run clock bits us).2) := by
  induction ts generalizing s with
  | nil => rfl
  | cons t ts ih => rw [List.cons_append, run_cons, ih, run_cons, List.cons_append]

theorem length_answers (s : Session) (ts : List Step) :
    (s.run clock bits ts).2.length = ts.length := by
  induction ts generalizing s with
  | nil => rfl
  | cons t ts ih => exact congrArg (· + 1) (ih _)

/-- The answer to a step within a run is the one that it has after the steps before. -/
theorem getElem?_answers (s : Session) (ts : List Step) (t : Step) (us : List Step) :
    (s.run clock bits (ts ++ t :: us)).2[ts.length]? =
      some ((s.run clock bits ts).1.step clock bits t).2 := by
  rw [run_append, List.getElem?_append_right (Nat.le_of_eq (length_answers clock bits s ts)),
    length_answers, Nat.sub_self, run_cons, List.getElem?_cons_zero]

/-- The evaluators of a session are made from its snapshots. -/
theorem evaluators_run (s : Session) (ts : List Step) :
    (s.run clock bits ts).1.evaluators =
      s.evaluators ++ freshEvaluators clock s.asked (snapshots s.data s.settings ts) := by
  induction ts generalizing s with
  | nil => simp [run, snapshots, freshEvaluators]
  | cons t ts ih =>
    rw [run_cons, ih, evaluators_step, asked_step, data_step, settings_step, snapshots,
      freshEvaluators_append, List.append_assoc]

/-- The clock is asked once for each evaluator. -/
theorem asked_run (s : Session) (ts : List Step) :
    (s.run clock bits ts).1.asked = s.asked + (snapshots s.data s.settings ts).length := by
  induction ts generalizing s with
  | nil => rfl
  | cons t ts ih =>
    rw [run_cons, ih, asked_step, data_step, settings_step, snapshots, List.length_append,
      Nat.add_assoc]

/-- A session takes a bit for each predicate that it comes to and that asks for chance. -/
theorem drawn_run (s : Session) (ts : List Step) :
    (s.run clock bits ts).1.drawn =
      s.drawn + (s.calls clock bits ts).countP fun c => PredicateCall.IsChance c := by
  induction ts generalizing s with
  | nil => rfl
  | cons t ts ih => rw [run_cons, ih, drawn_step, calls, List.countP_append, Nat.add_assoc]

/-- **Evaluators are snapshots.** After any steps of a caller, in any order,

- the evaluators are those that are made anew from the data and the settings that the caller had
  when each was made and from the dates that the clock gave one after the other, and they are there
  unchanged after any further steps;
- the clock was asked once for each evaluator;
- the random bits that were taken are as many as the predicates that were come to by name, among
  them those of evaluations that failed, and that ask for chance and have the right count of
  arguments;
- a step that is put to the current evaluator is answered as by the evaluator that is made anew,
  from the next random bit on;
- the answers are those of the session whose tables are written in place. -/
theorem evaluators_are_snapshots (data : Table Value) (settings : List (Value × Value))
    (ts : List Step) (t : Step) (us : List Step) :
    let s := ((start data settings).run clock bits ts).1
    let ended := (start data settings).run clock bits (ts ++ t :: us)
    s.evaluators = freshEvaluators clock 0 (snapshots data settings ts) ∧
    s.evaluators <+: ended.1.evaluators ∧
    s.asked = s.evaluators.length ∧
    s.drawn =
      ((start data settings).calls clock bits ts).countP (fun c => PredicateCall.IsChance c) ∧
    (∀ c, (snapshots data settings ts)[s.current]? = some c →
      ∀ a, t.answer? (c.evaluator (clock s.current)) (bits.from s.drawn) = some a →
        ended.2[ts.length]? = some a) ∧
    ended.2 = ((SharedSession.start data settings).run clock bits (ts ++ t :: us)).2 := by
  intro s ended
  have hevaluators (rs : List Step) :
      ((start data settings).run clock bits rs).1.evaluators =
        freshEvaluators clock 0 (snapshots data settings rs) :=
    evaluators_run clock bits _ rs
  refine ⟨hevaluators ts, ?_, ?_, ?_, ?_, ?_⟩
  · obtain ⟨made, hmade⟩ := snapshots_prefix_append data settings ts (t :: us)
    rw [hevaluators, hevaluators, ← hmade, freshEvaluators_append]
    exact List.prefix_append _ _
  · rw [hevaluators, length_freshEvaluators]
    exact (asked_run clock bits _ ts).trans (Nat.zero_add _)
  · exact (drawn_run clock bits _ ts).trans (Nat.zero_add _)
  · intro c hc a ha
    have hcurrent : s.evaluators[s.current]? = some (c.evaluator (clock s.current)) := by
      rw [hevaluators, freshEvaluators, List.getElem?_mapIdx, hc, Nat.zero_add, Option.map_some]
    rw [getElem?_answers, answer_step s t hcurrent ha]
  · have hstart := SharedSession.start_mirrors data settings
    exact (SharedSession.run_mirrors clock bits hstart _).1.symm

/-- An evaluator goes on with the plan that it was made with, and a rule that fails has taken the
bit of its chance. -/
theorem evaluators_are_snapshots_of_changed_plan :
    let made : List Step := [.make, .setData "plan" (.text "team"), .make, .use 0,
      .evaluate "random&&days:none"]
    let bits : Bits := fun n => n == 0
    let s := ((start (.ofList [("plan", .text "pro")]) []).run (fun _ => .first) bits made).1
    let ended := (start (.ofList [("plan", .text "pro")]) []).run (fun _ => .first) bits
      (made ++ .evaluate "eq:plan,pro&&sometimes" :: [])
    s.drawn = 1 ∧ ended.2[5]? = some ⟨.evaluated (.ok false),
      [.decided "eq:plan,pro" true, .decided "sometimes" false]⟩ := by
  intro made bits s ended
  obtain ⟨-, -, -, hdrawn, hanswer, -⟩ := evaluators_are_snapshots (fun _ => .first) bits
    (.ofList [("plan", .text "pro")]) [] made (.evaluate "eq:plan,pro&&sometimes") []
  exact ⟨hdrawn.trans (by decide +kernel), hanswer _ rfl _ rfl⟩

end Runs

end Session

end Verdict
