import Verdict.Proofs.Evaluator.Reach
import Verdict.Proofs.Rule.Occurrence
/-!
# How the parts of a rule make the whole

The evaluation of two joined clauses is told here from the evaluations of the clauses: its result,
its log and the random bits that it takes (`evaluate_of_joined`). An error of the left clause is all
that there is, a left clause that decides makes one more line in the log and nothing else, and after
any other the right clause goes on from where the left one stopped reading bits.

That the text is taken apart where it was joined needs the left clause to hold no combinator, and
not to end in a character that would make one together with the first character of the joint: the
left part of `a&&&b` is `a`.
-/

namespace Verdict.Evaluator

variable {E : Evaluator} {clause left right : String} {op : Combinator} {bits : Bits}

/-! ## One clause

A clause takes a bit exactly when it has an answer from one, so a clause that fails takes none. -/

/-- Whether a clause asks for chance, and for nothing else. -/
def AsksChance (clause : String) : Prop :=
  ((Clause.parse clause).name = "random" ∨ (Clause.parse clause).name = "sometimes") ∧
    (Clause.parse clause).args = []

instance (clause : String) : Decidable (AsksChance clause) :=
  inferInstanceAs (Decidable (_ ∧ _))

/-- A predicate takes a bit exactly if it asks for chance and has no arguments. -/
theorem drawn_call (E : Evaluator) (name : String) (args : List String) (bits : Bits) :
    (E.call name args bits).drawn =
      if (name = "random" ∨ name = "sometimes") ∧ args = [] then 1 else 0 := by
  unfold call
  cases hp : Predicate.ofName? name with
  | none =>
    -- the names that ask for chance are those of predicates
    have hchance : ¬ ((name = "random" ∨ name = "sometimes") ∧ args = []) := by
      rintro ⟨rfl | rfl, -⟩
      · exact absurd hp (by decide)
      · exact absurd hp (by decide)
    rw [if_neg hchance]
  | some p =>
    have hchance : (name = "random" ∨ name = "sometimes") ∧ args = [] ↔
        (p = .random ∨ p = .sometimes) ∧ args = [] := by
      rw [← Predicate.name_of_ofName? hp]
      cases p <;> simp [Predicate.name]
    simp only [draws, hchance]

theorem drawn_evaluateClause (E : Evaluator) (clause : String) (bits : Bits) :
    (E.evaluateClause clause bits).drawn = if AsksChance clause then 1 else 0 := by
  have hdrawn : (E.evaluateClause clause bits).drawn =
      (E.call (Clause.parse clause).name (Clause.parse clause).args bits).drawn := by
    unfold evaluateClause
    dsimp only
    split <;> rfl
  rw [hdrawn, drawn_call]
  rfl

theorem log_evaluateClause (E : Evaluator) (clause : String) (bits : Bits) :
    (E.evaluateClause clause bits).log =
      match (E.evaluateClause clause bits).result with
      | .ok b => [.decided clause b]
      | .error _ => [] := by
  unfold evaluateClause
  dsimp only
  split <;> rfl

/-- What asks for chance is answered. -/
theorem isOk_of_asksChance (E : Evaluator) (bits : Bits) (h : AsksChance clause) :
    ∃ b, (E.evaluateClause clause bits).result = .ok b := by
  obtain ⟨hname, hargs⟩ := h
  rw [evaluateClause_isOk_iff, AnswersClause, hargs]
  rcases hname with hname | hname
  · exact ⟨.random, by rw [hname]; decide, .bare⟩
  · exact ⟨.sometimes, by rw [hname]; decide, .bare⟩

/-- A clause that fails is neither logged nor given a bit. -/
theorem evaluateClause_of_error {e : Failure ClauseError}
    (h : (E.evaluateClause clause bits).result = .error e) :
    E.evaluateClause clause bits = ⟨.error e, [], 0⟩ := by
  have hlog := log_evaluateClause E clause bits
  have hdrawn := drawn_evaluateClause E clause bits
  have hchance : ¬ AsksChance clause := by
    intro hchance
    obtain ⟨b, hb⟩ := isOk_of_asksChance E bits hchance
    rw [h] at hb
    cases hb
  rw [h] at hlog
  rw [if_neg hchance] at hdrawn
  generalize E.evaluateClause clause bits = o at h hlog hdrawn ⊢
  obtain ⟨result, log, drawn⟩ := o
  simp only at h hlog hdrawn
  rw [h, hlog, hdrawn]

/-- An error of a clause is the error of its predicate, together with the clause. -/
theorem call_of_evaluateClause {e : ClauseError}
    (h : (E.evaluateClause clause bits).result = .error (.declared e)) :
    e.clause = clause ∧
      (E.call (Clause.parse clause).name (Clause.parse clause).args bits).result =
        .error (.declared e.cause) := by
  unfold evaluateClause at h
  cases hcall : (E.call (Clause.parse clause).name (Clause.parse clause).args bits).result with
  | ok b =>
    simp only [hcall] at h
    cases h
  | error failure =>
    simp only [hcall, Except.error.injEq] at h
    obtain ⟨cause, rfl, rfl⟩ := Failure.map_eq_declared_iff.1 h
    exact ⟨rfl, rfl⟩

/-! ## The clauses that are reached -/

/-- The clauses that an evaluation comes to, in order. -/
def reached (E : Evaluator) (rule : String) (bits : Bits) : List String :=
  match Expression.split rule with
  | .single clause => [clause]
  | .compound left op right =>
    match (E.evaluateClause left bits).result with
    | .ok b => if b = op.deciding then [left] else [left, right]
    | .error _ => [left]

section Compound

variable {rule : String} (hsplit : Expression.split rule = .compound left op right)

include hsplit

theorem reached_of_undecided
    (undecided : (E.evaluateClause left bits).result = .ok (!op.deciding)) :
    E.reached rule bits = [left, right] := by
  have hopen : ¬ (!op.deciding) = op.deciding := by simp
  unfold reached
  simp only [hsplit, undecided, if_neg hopen]

/-- After an error, and after the deciding value, no clause is left to come to. -/
theorem reached_of_ne_undecided
    (h : (E.evaluateClause left bits).result ≠ .ok (!op.deciding)) :
    E.reached rule bits = [left] := by
  unfold reached
  simp only [hsplit]
  cases hresult : (E.evaluateClause left bits).result with
  | error e => rfl
  | ok b =>
    have hb : b = op.deciding := by
      refine Decidable.byContradiction fun hb => h ?_
      rw [hresult, Bool.eq_not_of_ne hb]
    simp only [if_pos hb]

theorem evaluate_of_compound :
    E.evaluate rule bits = (E.evaluateClause left bits).andThen fun b =>
      if b = op.deciding then ⟨.ok b, [.skipped op right], 0⟩
      else E.evaluateClause right (bits.from (E.evaluateClause left bits).drawn) := by
  unfold evaluate
  simp only [hsplit]

end Compound

/-- The list is that of the clauses which an evaluation comes to. -/
theorem mem_reached_iff {rule : String} :
    clause ∈ E.reached rule bits ↔
      ∃ rest, E.Reaches bits (Expression.split rule) clause rest := by
  -- the row and the relation both have the right operand only if the left one leaves it open
  cases hsplit : Expression.split rule with
  | single text =>
    rw [reached, hsplit, List.mem_singleton]
    constructor
    · rintro rfl
      exact ⟨bits, .single clause⟩
    · rintro ⟨_, ⟨⟩⟩
      rfl
  | compound left op right =>
    by_cases undecided : (E.evaluateClause left bits).result = .ok (!op.deciding)
    · rw [reached_of_undecided hsplit undecided]
      constructor
      · intro hmem
        rcases List.mem_cons.1 hmem with rfl | hmem
        · exact ⟨bits, .left clause op right⟩
        · rw [List.mem_singleton.1 hmem]
          exact ⟨_, .right undecided⟩
      · rintro ⟨_, hreach⟩
        cases hreach with
        | left => exact List.mem_cons_self
        | right _ => exact List.mem_cons_of_mem _ (List.mem_singleton.2 rfl)
    · rw [reached_of_ne_undecided hsplit undecided, List.mem_singleton]
      constructor
      · rintro rfl
        exact ⟨bits, .left clause op right⟩
      · rintro ⟨_, hreach⟩
        cases hreach with
        | left => rfl
        | right h => exact absurd h undecided

/-- An evaluation takes one bit for each clause that it comes to and that asks for chance. -/
theorem drawn_evaluate (E : Evaluator) (rule : String) (bits : Bits) :
    (E.evaluate rule bits).drawn = (E.reached rule bits).countP fun c => AsksChance c := by
  -- the cases are those of `reached`: a left clause fails, decides, or leaves the answer open
  cases hsplit : Expression.split rule with
  | single clause =>
    unfold evaluate reached
    simp only [hsplit, drawn_evaluateClause, List.countP_singleton, decide_eq_true_eq]
  | compound left op right =>
    rw [evaluate_of_compound hsplit]
    cases hresult : (E.evaluateClause left bits).result with
    | error e =>
      have hne : (E.evaluateClause left bits).result ≠ .ok (!op.deciding) := by
        rw [hresult]
        exact nofun
      rw [Outcome.andThen_of_error _ hresult, reached_of_ne_undecided hsplit hne]
      simp only [drawn_evaluateClause, List.countP_singleton, decide_eq_true_eq]
    | ok b =>
      rw [Outcome.andThen_of_ok _ hresult]
      by_cases hb : b = op.deciding
      · have hne : (E.evaluateClause left bits).result ≠ .ok (!op.deciding) := by
          rw [hresult, hb]
          simp
        rw [reached_of_ne_undecided hsplit hne, if_pos hb]
        simp only [drawn_evaluateClause, List.countP_singleton, decide_eq_true_eq, Nat.add_zero]
      · have undecided : (E.evaluateClause left bits).result = .ok (!op.deciding) := by
          rw [hresult, Bool.eq_not_of_ne hb]
        rw [reached_of_undecided hsplit undecided, if_neg hb]
        simp only [drawn_evaluateClause, List.countP_cons, List.countP_nil, decide_eq_true_eq]
        omega

/-! ## Two clauses -/

/-- **Joined clauses.** If the left clause fails, the whole fails with the same error, and nothing
is logged or taken; the error names the left clause and its cause is that of the call. If the left
clause decides, its value is the value of the whole, and the right clause is no more than named in
the log. Otherwise the whole ends as the right clause does from the next bit on, and either of them
is logged if it was decided. In all, as many bits are taken as clauses are reached that ask for
chance. -/
theorem evaluate_of_joined (E : Evaluator) (bits : Bits) (right : String)
    (hleft : ¬ Combinator.Occurs left.toList) (hend : left.toList.getLast? ≠ some op.mark) :
    (∀ e, (E.evaluateClause left bits).result = .error e →
      E.evaluate (left ++ op.token ++ right) bits = ⟨.error e, [], 0⟩ ∧
      ∀ c, e = .declared c → c.clause = left ∧
        (E.call (Clause.parse left).name (Clause.parse left).args bits).result =
          .error (.declared c.cause)) ∧
    ((E.evaluateClause left bits).result = .ok op.deciding →
      E.evaluate (left ++ op.token ++ right) bits =
        ⟨.ok op.deciding, [.decided left op.deciding, .skipped op right],
          (E.evaluateClause left bits).drawn⟩) ∧
    ((E.evaluateClause left bits).result = .ok (!op.deciding) →
      let second := E.evaluateClause right (bits.from (E.evaluateClause left bits).drawn)
      E.evaluate (left ++ op.token ++ right) bits =
        ⟨second.result, .decided left (!op.deciding) :: second.log,
          (E.evaluateClause left bits).drawn + second.drawn⟩ ∧
      (∀ b, second.result = .ok b → second.log = [.decided right b]) ∧
      (∀ e, second.result = .error e → second.log = []) ∧
      ∀ c, second.result = .error (.declared c) → c.clause = right) ∧
    ∀ rule, (E.evaluate rule bits).drawn =
      (E.reached rule bits).countP fun clause => AsksChance clause := by
  have heval : E.evaluate (left ++ op.token ++ right) bits =
      (E.evaluateClause left bits).andThen fun b =>
        if b = op.deciding then ⟨.ok b, [.skipped op right], 0⟩
        else E.evaluateClause right (bits.from (E.evaluateClause left bits).drawn) := by
    exact evaluate_of_compound (Expression.split_of_joined right hleft hend)
  have hlog := log_evaluateClause E left bits
  refine ⟨?_, ?_, ?_, fun rule => drawn_evaluate E rule bits⟩
  · intro e he
    refine ⟨?_, ?_⟩
    · rw [heval, Outcome.andThen_of_error _ he, evaluateClause_of_error he]
    · intro c hc
      rw [hc] at he
      exact call_of_evaluateClause he
  · intro hdecided
    -- what is skipped has neither a line of its own nor a bit
    rw [hdecided] at hlog
    rw [heval, Outcome.andThen_of_ok _ hdecided, if_pos rfl, hlog]
    simp only [List.singleton_append, Nat.add_zero]
  · intro hopen
    rw [hopen] at hlog
    have hne : ¬ (!op.deciding) = op.deciding := by simp
    have hright := log_evaluateClause E right (bits.from (E.evaluateClause left bits).drawn)
    refine ⟨?_, ?_, ?_, ?_⟩
    · rw [heval, Outcome.andThen_of_ok _ hopen, if_neg hne, hlog]
      simp only [List.singleton_append]
    · intro b hb
      rw [hright, hb]
    · intro e he
      rw [hright, he]
    · intro c hc
      exact (call_of_evaluateClause hc).1

/-- The first bit leaves the answer open, and the second one gives it. -/
theorem evaluate_random_or_sometimes :
    let E : Evaluator := ⟨.empty, .first, .empty⟩
    let bits : Bits := fun n => n = 1
    ¬ Combinator.Occurs "random".toList ∧ "random".toList.getLast? ≠ some Combinator.or.mark ∧
      (E.evaluateClause "random" bits).result = .ok (!Combinator.or.deciding) ∧
      E.evaluate "random||sometimes" bits =
        ⟨.ok true, [.decided "random" false, .decided "sometimes" true], 2⟩ := by
  intro E bits
  have hleft : ¬ Combinator.Occurs "random".toList := by
    rw [← Combinator.isSome_splitChars?_iff]
    decide
  have hend : "random".toList.getLast? ≠ some Combinator.or.mark := by decide
  have hopen : (E.evaluateClause "random" bits).result = .ok (!Combinator.or.deciding) := rfl
  have hwhole := ((evaluate_of_joined E bits "sometimes" hleft hend).2.2.1 hopen).1
  exact ⟨hleft, hend, hopen, hwhole⟩

end Verdict.Evaluator
