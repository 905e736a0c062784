import Verdict.Proofs.Evaluator.Answer
/-!
# Where an evaluation ends

An evaluation comes to one clause, or to two of which the second is reached only if the first one
leaves the answer open. It fails exactly as one of the clauses that it comes to does
(`evaluate_eq_error_iff`), and how a clause ends is a matter of its predicate: there may be none of
that name, and otherwise the rules for the family of the predicate apply.
-/

namespace Verdict.Evaluator

variable {E : Evaluator} {clause rule : String} {bits : Bits}

/-! ## One clause -/

/-- The clauses that have an answer. -/
def AnswersClause (E : Evaluator) (clause : String) : Prop :=
  ∃ p, Predicate.ofName? (Clause.parse clause).name = some p ∧
    E.Answers p.family (Clause.parse clause).args

/-- The clauses that end in a fault. -/
def OverrunsClause (E : Evaluator) (clause : String) (f : Fault) : Prop :=
  ∃ p, Predicate.ofName? (Clause.parse clause).name = some p ∧
    E.Overruns p.family (Clause.parse clause).args f

/-- Without a predicate of its name, a clause fails at once: it leaves no log and takes no bit. -/
theorem evaluateClause_of_unknown
    (h : Predicate.ofName? (Clause.parse clause).name = none) (bits : Bits) :
    E.evaluateClause clause bits =
      ⟨.error (.declared ⟨clause, .unknownName (Clause.parse clause).name⟩), [], 0⟩ := by
  unfold evaluateClause call
  simp only [h, Failure.map_declared]

/-- With a predicate of its name, a clause ends as the predicate does, and an error names the clause
as it stands. -/
theorem result_evaluateClause_of_ofName? {p : Predicate}
    (h : Predicate.ofName? (Clause.parse clause).name = some p) (bits : Bits) :
    (E.evaluateClause clause bits).result =
      (E.answer p (Clause.parse clause).args (bits 0)).mapError
        (Failure.map fun cause => ⟨clause, cause⟩) := by
  unfold evaluateClause call
  simp only [h]
  cases E.answer p (Clause.parse clause).args (bits 0) <;> rfl

/-- A clause has an answer exactly by the rules of its predicate. -/
theorem evaluateClause_isOk_iff :
    (∃ b, (E.evaluateClause clause bits).result = .ok b) ↔ E.AnswersClause clause := by
  unfold AnswersClause
  cases hp : Predicate.ofName? (Clause.parse clause).name with
  | none =>
    rw [evaluateClause_of_unknown hp]
    simp
  | some p =>
    simp only [result_evaluateClause_of_ofName? hp, mapError_eq_ok_iff, answer_isOk_iff,
      Option.some.injEq, exists_eq_left']

/-- A clause ends in a fault exactly by the rules of its predicate. -/
theorem evaluateClause_eq_fault_iff {f : Fault} :
    (E.evaluateClause clause bits).result = .error (.fault f) ↔ E.OverrunsClause clause f := by
  unfold OverrunsClause
  cases hp : Predicate.ofName? (Clause.parse clause).name with
  | none =>
    rw [evaluateClause_of_unknown hp]
    simp
  | some p =>
    simp only [result_evaluateClause_of_ofName? hp, mapError_eq_error_iff,
      Failure.map_eq_fault_iff, exists_eq_right, answer_eq_fault_iff, Option.some.injEq,
      exists_eq_left']

/-- An error of a clause names the clause as it stands, and says that there is no predicate exactly
when that is so. -/
theorem of_evaluateClause_eq_declared {e : ClauseError}
    (h : (E.evaluateClause clause bits).result = .error (.declared e)) :
    e.clause = clause ∧ ∀ name, e.cause = .unknownName name →
      Predicate.ofName? (Clause.parse clause).name = none := by
  cases hp : Predicate.ofName? (Clause.parse clause).name with
  | none =>
    rw [evaluateClause_of_unknown hp] at h
    cases h
    exact ⟨rfl, fun _ _ => rfl⟩
  | some p =>
    rw [result_evaluateClause_of_ofName? hp, mapError_eq_error_iff] at h
    obtain ⟨failure, hanswer, h⟩ := h
    obtain ⟨cause, rfl, rfl⟩ := Failure.map_eq_declared_iff.1 h
    refine ⟨rfl, fun name hcause => ?_⟩
    cases hcause
    exact absurd hanswer answer_ne_unknownName

/-! ## Rules -/

/-- The clauses that an evaluation comes to, and the source of bits that each of them reads. -/
inductive Reaches (E : Evaluator) (bits : Bits) : Expression → String → Bits → Prop
  /-- A single clause is evaluated. -/
  | single (clause : String) : Reaches E bits (.single clause) clause bits
  /-- The left operand is always evaluated. -/
  | left (left : String) (op : Combinator) (right : String) :
      Reaches E bits (.compound left op right) left bits
  /-- The right operand is evaluated, from where the left one stopped, if that left the answer
  open. -/
  | right {left : String} {op : Combinator} {right : String}
      (undecided : (E.evaluateClause left bits).result = .ok (!op.deciding)) :
      Reaches E bits (.compound left op right) right
        (bits.from (E.evaluateClause left bits).drawn)

/-- A clause that is reached is an operand of the rule. -/
theorem Reaches.mem_operands {expression : Expression} {rest : Bits}
    (h : E.Reaches bits expression clause rest) : clause ∈ expression.operands := by
  cases h <;> simp [Expression.operands]

/-- When the left operand leaves the answer open, the rule ends as the right one does. -/
theorem result_evaluate_of_undecided {left right : String} {op : Combinator}
    (hsplit : Expression.split rule = .compound left op right)
    (undecided : (E.evaluateClause left bits).result = .ok (!op.deciding)) :
    (E.evaluate rule bits).result =
      (E.evaluateClause right (bits.from (E.evaluateClause left bits).drawn)).result := by
  have hopen : ¬ (!op.deciding) = op.deciding := by simp
  unfold evaluate
  simp only [hsplit]
  rw [Outcome.andThen_of_ok _ undecided, if_neg hopen]

/-- An evaluation fails exactly as one of the clauses that it comes to does. -/
theorem evaluate_eq_error_iff {e : Failure ClauseError} :
    (E.evaluate rule bits).result = .error e ↔
      ∃ clause rest, E.Reaches bits (Expression.split rule) clause rest ∧
        (E.evaluateClause clause rest).result = .error e := by
  cases hsplit : Expression.split rule with
  | single text =>
    unfold evaluate
    simp only [hsplit]
    refine ⟨fun h => ⟨text, bits, .single text, h⟩, ?_⟩
    rintro ⟨_, _, ⟨⟩, h⟩
    exact h
  | compound left op right =>
    cases hleft : (E.evaluateClause left bits).result with
    | error e' =>
      have hresult : (E.evaluate rule bits).result = .error e' := by
        unfold evaluate
        simp only [hsplit]
        rw [Outcome.andThen_of_error _ hleft]
      rw [hresult]
      constructor
      · intro h
        cases h
        exact ⟨left, bits, .left left op right, hleft⟩
      · rintro ⟨clause, rest, hreach, h⟩
        cases hreach with
        | left => exact hleft.symm.trans h
        | right undecided => exact absurd (hleft.symm.trans undecided) nofun
    | ok b =>
      -- by the answer of the left operand, which alone decides whether the right one is reached
      by_cases hb : b = op.deciding
      · -- the right operand is skipped, and nothing is left that could fail
        have hresult : (E.evaluate rule bits).result = .ok b := by
          unfold evaluate
          simp only [hsplit]
          rw [Outcome.andThen_of_ok _ hleft, if_pos hb]
        rw [hresult]
        refine ⟨nofun, ?_⟩
        rintro ⟨clause, rest, hreach, h⟩
        cases hreach with
        | left => exact absurd (hleft.symm.trans h) nofun
        | right undecided =>
          have hne := hleft.symm.trans undecided
          rw [hb] at hne
          simp at hne
      · have undecided : (E.evaluateClause left bits).result = .ok (!op.deciding) := by
          rw [hleft, Bool.eq_not_of_ne hb]
        rw [result_evaluate_of_undecided hsplit undecided]
        refine ⟨fun h => ⟨right, _, .right undecided, h⟩, ?_⟩
        rintro ⟨clause, rest, hreach, h⟩
        cases hreach with
        | left => exact absurd (hleft.symm.trans h) nofun
        | right _ => exact h

end Verdict.Evaluator
