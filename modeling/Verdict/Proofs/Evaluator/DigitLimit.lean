import Verdict.Proofs.Evaluator.Reach
import Verdict.Proofs.Rule.Occurrence
/-!
# Evaluations beyond the digit limit

An evaluation is meant to end in an answer or in an error that names a clause. The digit limit makes
a third end: a weekday or month whose number has too many digits, and a stored integer that has to
be written, for a comparison or for an error message, and is too large for that. A lookup of
settings that fails makes it as well. This module says exactly when an evaluation ends so
(`evaluate_ends`): when it comes to a clause for which the rules of `Overruns` apply. Every other
evaluation ends as it is meant to.
-/

namespace Verdict.Evaluator

open Text

variable {E : Evaluator} {rule : String} {bits : Bits}

/-- The faults that an evaluator can meet: those of the limit, and those of its lookup. -/
inductive Meets (E : Evaluator) : Fault → Prop
  /-- An integer is too long to be written. -/
  | longInteger : Meets E .longInteger
  /-- A number is too long to be read. -/
  | longNumeral {digits : Nat} (long : digitLimit < digits) : Meets E (.longNumeral digits)
  /-- The lookup fails for a name. -/
  | lookup {name : String} {f : Fault} (fails : E.env.find? name = .error f) : Meets E f

/-- The limit or the lookup is what every fault of a predicate is about. -/
theorem Overruns.meets {family : Predicate.Family} {args : List String} {f : Fault}
    (h : E.Overruns family args f) : E.Meets f := by
  cases h with
  | calendar _ _ long => exact .longNumeral long.2
  | equality _ _ _ => exact .longInteger
  | order _ _ _ => exact .longInteger
  | setting _ fails => exact .lookup fails

/-- An evaluation ends in a fault exactly at a clause that it comes to and that overruns. -/
theorem evaluate_eq_fault_iff {f : Fault} :
    (E.evaluate rule bits).result = .error (.fault f) ↔
      ∃ clause rest, E.Reaches bits (Expression.split rule) clause rest ∧
        E.OverrunsClause clause f := by
  simp only [evaluate_eq_error_iff, evaluateClause_eq_fault_iff]

/-- **How evaluations end.** An evaluation gives an answer or an error that names a clause exactly
when no clause that it comes to overruns; otherwise it ends in the fault of that clause, which is
about the digit limit, or the one in which the lookup of a setting failed.

Rules, arguments and texts are rows of Unicode characters here, so the halves of surrogate pairs do
not stand in them; the lookup may be any and may fail for any name; and there is no limit to how
deep a stored value is nested, while showing one that is nested too deep may fail where there is. -/
theorem evaluate_ends (E : Evaluator) (rule : String) (bits : Bits) :
    (((∃ b, (E.evaluate rule bits).result = .ok b) ∨
        ∃ e, (E.evaluate rule bits).result = .error (.declared e)) ↔
      ¬ ∃ clause rest f, E.Reaches bits (Expression.split rule) clause rest ∧
        E.OverrunsClause clause f) ∧
    ∀ f, (E.evaluate rule bits).result = .error (.fault f) ↔
      E.Meets f ∧ ∃ clause rest, E.Reaches bits (Expression.split rule) clause rest ∧
        E.OverrunsClause clause f := by
  have hfault : (∃ clause rest f, E.Reaches bits (Expression.split rule) clause rest ∧
      E.OverrunsClause clause f) ↔ ∃ f, (E.evaluate rule bits).result = .error (.fault f) := by
    simp only [evaluate_eq_fault_iff]
    exact ⟨fun ⟨clause, rest, f, h⟩ => ⟨f, clause, rest, h⟩,
      fun ⟨f, clause, rest, h⟩ => ⟨clause, rest, f, h⟩⟩
  refine ⟨?_, fun f => ?_⟩
  -- there are three ends, and the first two are all but the faults
  · rw [hfault]
    rcases (E.evaluate rule bits).result with (e | f) | b
    · simp
    · simp
    · simp
  · rw [evaluate_eq_fault_iff, iff_and_self]
    rintro ⟨clause, rest, -, p, -, hoverruns⟩
    exact hoverruns.meets

/-! ## A weekday of too many digits -/

/-- A weekday of more ones than the limit is met by no answer and by no error. -/
theorem evaluate_days_of_long {n : Nat} (h : digitLimit < n) :
    (E.evaluate (String.ofList ("days".toList ++ ':' :: List.replicate n '1')) bits).result =
      .error (.fault (.longNumeral n)) := by
  have hones : ∀ c ∈ List.replicate n '1', c = '1' := fun c hc => (List.mem_replicate.1 hc).2
  -- neither the name nor the digits hold a mark of a combinator, so the rule is one clause
  have hplain : ¬ Combinator.Occurs ("days".toList ++ ':' :: List.replicate n '1') := by
    apply Combinator.not_occurs_of_forall_notMem
    intro op hop
    have hname : op.mark ∉ "days".toList := by cases op <;> decide
    have hcolon : op.mark ≠ ':' := by cases op <;> decide
    have hone : op.mark ≠ '1' := by cases op <;> decide
    rcases List.mem_append.1 hop with h | h
    · exact hname h
    · rcases List.mem_cons.1 h with h | h
      · exact hcolon h
      · exact hone (hones _ h)
  have htrim : trimChars (List.replicate n '1') = List.replicate n '1' :=
    trimChars_of_forall fun c hc => by rw [hones c hc]; decide
  have hargs : Clause.argsOfChars (List.replicate n '1') =
      [String.ofList (List.replicate n '1')] := by
    rw [Clause.argsOfChars_of_notMem, htrim]
    · exact fun hcomma => absurd (hones _ hcomma) (by decide)
    · rw [List.all_eq_false]
      exact ⟨'1', List.mem_replicate.2 ⟨by omega, rfl⟩, by decide⟩
  rw [evaluate_eq_fault_iff, Expression.split_of_not_occurs (by rwa [String.toList_ofList])]
  refine ⟨_, bits, .single _, .days, ?_, ?_⟩
  · have hname : Predicate.ofName? (String.ofList (trimChars "days".toList)) = some .days := by
      decide
    rwa [Clause.parse_append_colon (by decide)]
  · rw [Clause.parse_append_colon (by decide), hargs]
    have hlong : CalendarPart.IsLongNumber (String.ofList (List.replicate n '1')) := by
      rw [CalendarPart.IsLongNumber, String.toList_ofList, htrim, List.all_eq_true,
        List.length_replicate]
      exact ⟨fun c hc => by rw [hones c hc]; decide, h⟩
    have hfault : E.Overruns (.calendar .day)
        ([] ++ String.ofList (List.replicate n '1') :: []) _ :=
      .calendar rfl (fun a ha => absurd ha List.not_mem_nil) hlong
    rwa [String.toList_ofList, htrim, List.length_replicate] at hfault

/-- One digit beyond the limit is enough. -/
theorem evaluate_days_of_4301_ones :
    let rule := String.ofList ("days".toList ++ ':' :: List.replicate 4301 '1')
    let E : Evaluator := ⟨.empty, ⟨2017, 3, 29, by decide, by decide⟩, .empty⟩
    ¬ ((∃ b, (E.evaluate rule fun _ => false).result = .ok b) ∨
      ∃ e, (E.evaluate rule fun _ => false).result = .error (.declared e)) := by
  simp only [evaluate_days_of_long (n := 4301) (by decide)]
  simp

end Verdict.Evaluator
