import Verdict.Proofs.Evaluator.Composition
/-!
# What a clause looks at

A predicate looks at one thing at most: the value of a key, a part of today's date, a setting, or
the next random bit. `Footprint` names that thing by the predicate and its first argument, and two
evaluators that have it in common answer alike (`call_eq_of_agrees`), down to the words of an error
and to the bits taken. What the rest of the data, of the date or of the settings is cannot be found
out from an answer.

A rule looks at what its clauses look at (`evaluate_reads_footprints`). The bits of the right clause
begin where the left one stopped, and where that is can be told from the text of the left clause.
-/

namespace Verdict

/-- What a predicate may look at. -/
inductive Footprint where
  /-- Nothing. -/
  | nothing
  /-- The value of a key, or that the key is not there. -/
  | value (key : String)
  /-- Today's weekday. -/
  | weekday
  /-- Today's month. -/
  | month
  /-- The setting with a name, or that there is none, or that the lookup fails for it. -/
  | setting (name : String)
  /-- The next random bit. -/
  | bit
  deriving DecidableEq, Repr

/-- What a predicate with given arguments may look at. A key and the name of a setting are the first
argument. -/
def Predicate.footprint (p : Predicate) (args : List String) : Footprint :=
  match p with
  | .always | .never => .nothing
  | .random | .sometimes => .bit
  | .days | .weekday | .weekend => .weekday
  | .months => .month
  | .present | .eq | .neq | .lt | .lte | .gt | .gte => args.head?.elim .nothing .value
  | .env => args.head?.elim .nothing .setting

namespace Footprint

/-- What the predicate with a name may look at; a name that no predicate has looks at nothing. -/
def ofCall (name : String) (args : List String) : Footprint :=
  (Predicate.ofName? name).elim .nothing fun p => p.footprint args

/-- What a clause may look at. -/
def ofClause (clause : String) : Footprint :=
  ofCall (Clause.parse clause).name (Clause.parse clause).args

/-- Whether two evaluators, each before its source of bits, have in common what a footprint covers.
-/
def Agrees (E E' : Evaluator) (bits bits' : Bits) : Footprint → Prop
  | .nothing => True
  | .value key => E.data.find? key = E'.data.find? key
  | .weekday => E.today.weekday = E'.today.weekday
  | .month => E.today.month = E'.today.month
  | .setting name => E.env.find? name = E'.env.find? name
  | .bit => bits 0 = bits' 0

end Footprint

namespace Evaluator

variable {E E' : Evaluator} {bits bits' : Bits}

/-! ## Predicates -/

/-- A comparison looks at the value of its key alone. -/
theorem comparing_eq_of_agrees {p : Predicate} {args : List String}
    {compare : Value → String → Answer}
    (h : (args.head?.elim .nothing Footprint.value).Agrees E E' bits bits') :
    E.comparing p args compare = E'.comparing p args compare := by
  unfold comparing
  split
  · next key literal =>
    have hvalue : E.data.find? key = E'.data.find? key := h
    rw [withValue, withValue, hvalue]
  · rfl

/-- Asking for a setting looks at that setting alone. -/
theorem settingAmong_eq_of_agrees {args : List String}
    (h : (args.head?.elim .nothing Footprint.setting).Agrees E E' bits bits') :
    E.settingAmong args = E'.settingAmong args := by
  rcases few_or_asked args with few | ⟨name, accepted, rfl, asked⟩
  · rw [settingAmong_of_few few, settingAmong_of_few few]
  · have hsetting : E.env.find? name = E'.env.find? name := h
    rw [settingAmong_cons asked, settingAmong_cons asked, hsetting]

/-- A predicate looks at its footprint alone. -/
theorem answer_eq_of_agrees {p : Predicate} {args : List String}
    (h : (p.footprint args).Agrees E E' bits bits') :
    E.answer p args (bits 0) = E'.answer p args (bits' 0) := by
  -- the footprint of a predicate is what its answer is computed from
  cases p with
  | always | never => rfl
  | random | sometimes =>
    have hbit : bits 0 = bits' 0 := h
    rw [answer, answer, hbit]
  | days =>
    have hweekday : E.today.weekday = E'.today.weekday := h
    rw [answer, answer, hweekday]
  | months =>
    have hmonth : E.today.month = E'.today.month := h
    rw [answer, answer, hmonth]
  | weekday | weekend =>
    have hweekday : E.today.weekday = E'.today.weekday := h
    rw [answer, answer, isWeekend, isWeekend, hweekday]
  | present =>
    rcases args with _ | ⟨key, _ | ⟨second, rest⟩⟩
    · rfl
    · have hvalue : E.data.find? key = E'.data.find? key := h
      rw [answer, answer, hvalue]
    · rfl
  | eq | neq | lt | lte | gt | gte => exact comparing_eq_of_agrees h
  | env => rw [answer, answer, settingAmong_eq_of_agrees h]

/-- Evaluators that agree on the footprint of a call give it the same outcome. -/
theorem call_eq_of_agrees {name : String} {args : List String}
    (h : (Footprint.ofCall name args).Agrees E E' bits bits') :
    E.call name args bits = E'.call name args bits' := by
  unfold call
  unfold Footprint.ofCall at h
  cases hp : Predicate.ofName? name with
  | none => rfl
  | some p =>
    rw [hp] at h
    dsimp only
    rw [answer_eq_of_agrees h]

/-! ## Clauses and rules -/

theorem evaluateClause_eq_of_agrees {clause : String}
    (h : (Footprint.ofClause clause).Agrees E E' bits bits') :
    E.evaluateClause clause bits = E'.evaluateClause clause bits' := by
  unfold evaluateClause
  dsimp only
  rw [call_eq_of_agrees h]

/-- Whether two evaluators, each before its source of bits, have in common what the operands of a
rule may look at. The right operand begins behind the bit of the left one, if that takes one. -/
def AgreeOn (E E' : Evaluator) (bits bits' : Bits) (rule : String) : Prop :=
  match Expression.split rule with
  | .single clause => (Footprint.ofClause clause).Agrees E E' bits bits'
  | .compound left _ right =>
    let taken := if AsksChance left then 1 else 0
    (Footprint.ofClause left).Agrees E E' bits bits' ∧
      (Footprint.ofClause right).Agrees E E' (bits.from taken) (bits'.from taken)

/-- Evaluators that agree on the footprints of a rule give it the same outcome. -/
theorem evaluate_eq_of_agreeOn {rule : String} (h : AgreeOn E E' bits bits' rule) :
    E.evaluate rule bits = E'.evaluate rule bits' := by
  unfold AgreeOn at h
  cases hsplit : Expression.split rule with
  | single clause =>
    rw [hsplit] at h
    unfold evaluate
    simp only [hsplit]
    exact evaluateClause_eq_of_agrees h
  | compound left op right =>
    rw [hsplit] at h
    obtain ⟨hleft, hright⟩ := h
    rw [evaluate_of_compound hsplit, evaluate_of_compound hsplit,
      evaluateClause_eq_of_agrees hleft, drawn_evaluateClause, evaluateClause_eq_of_agrees hright]

/-- **Clauses read their footprints.** A call ends in the same way, with the same answer or the same
error, on any two evaluators that have its footprint in common; and so does a rule on any two that
have the footprints of its operands in common, with the same log and as many bits taken. -/
theorem evaluate_reads_footprints :
    (∀ (name : String) (args : List String) (E E' : Evaluator) (bits bits' : Bits),
      (Footprint.ofCall name args).Agrees E E' bits bits' →
        E.call name args bits = E'.call name args bits') ∧
    ∀ (rule : String) (E E' : Evaluator) (bits bits' : Bits),
      AgreeOn E E' bits bits' rule → E.evaluate rule bits = E'.evaluate rule bits' :=
  ⟨fun _ _ _ _ _ _ => call_eq_of_agrees, fun _ _ _ _ _ => evaluate_eq_of_agreeOn⟩

/-- Two evaluators with one plan and a Wednesday each, and nothing else in common. -/
theorem evaluate_reads_plan_and_weekday :
    let E : Evaluator :=
      ⟨.ofList [("plan", .text "pro")], ⟨2017, 3, 29, by decide, by decide⟩, .empty⟩
    let E' : Evaluator := ⟨.ofList [("score", .int 3), ("plan", .text "pro")],
      ⟨2020, 1, 1, by decide, by decide⟩, .ofTable (.ofList [("TIER", "gold")])⟩
    let rule := "eq:plan,pro&&days:sat,wed"
    AgreeOn E E' (fun _ => false) (fun _ => true) rule ∧
      (E.evaluate rule fun _ => false).result = .ok true ∧
      E.evaluate rule (fun _ => false) = E'.evaluate rule fun _ => true := by
  intro E E' rule
  have hsplit : Expression.split rule = .compound "eq:plan,pro" .and "days:sat,wed" := by
    decide +kernel
  have hleft : Footprint.ofClause "eq:plan,pro" = .value "plan" := by decide +kernel
  have hright : Footprint.ofClause "days:sat,wed" = .weekday := by decide +kernel
  have hweekday : E.today.weekday = E'.today.weekday := by decide +kernel
  have hagree : AgreeOn E E' (fun _ => false) (fun _ => true) rule := by
    unfold AgreeOn
    rw [hsplit]
    dsimp only
    rw [hleft, hright]
    exact ⟨rfl, hweekday⟩
  exact ⟨hagree, by decide +kernel, evaluate_reads_footprints.2 rule E E' _ _ hagree⟩

end Evaluator

end Verdict
