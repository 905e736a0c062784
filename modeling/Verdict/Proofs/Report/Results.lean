import Verdict.Proofs.Evaluator.DigitLimit
import Verdict.Report.Basic
/-!
# Evaluating rules in a row

The rules of a report are evaluated one after the other, each from where the one before stopped
taking bits. The row fails exactly at its first rule that fails, and as that rule does.
-/

namespace Verdict.Evaluator

variable {E : Evaluator}

/-- The failures of rules in a row: the first rule that fails is reached after answers alone. -/
inductive FailsAt (E : Evaluator) (e : Failure ClauseError) : List (String × String) → Bits → Prop
  /-- The first rule fails. -/
  | here {name rule : String} {rules : List (String × String)} {bits : Bits}
    (failed : (E.evaluate rule bits).result = .error e) : FailsAt E e ((name, rule) :: rules) bits
  /-- The first rule has an answer, and a later one fails. -/
  | later {name rule : String} {rules : List (String × String)} {bits : Bits} {b : Bool}
    (answered : (E.evaluate rule bits).result = .ok b)
    (rest : FailsAt E e rules (bits.from (E.evaluate rule bits).drawn)) :
    FailsAt E e ((name, rule) :: rules) bits

/-- Rules fail exactly where one of them does, after rules that have answers. -/
theorem evaluateRules_eq_error_iff {e : Failure ClauseError} {rules : List (String × String)}
    {bits : Bits} : (E.evaluateRules rules bits).result = .error e ↔ E.FailsAt e rules bits := by
  -- the bits are general, since every rule starts where the one before stopped
  induction rules generalizing bits with
  | nil => exact ⟨nofun, nofun⟩
  | cons entry rules ih =>
    obtain ⟨name, rule⟩ := entry
    rw [evaluateRules]
    cases hfirst : (E.evaluate rule bits).result with
    | error e' =>
      rw [Outcome.andThen_of_error _ hfirst]
      dsimp only
      constructor
      · intro h
        cases h
        exact .here hfirst
      · rintro (failed | ⟨answered, -⟩)
        · cases hfirst.symm.trans failed
          rfl
        · cases hfirst.symm.trans answered
    | ok b =>
      rw [Outcome.andThen_of_ok _ hfirst]
      simp only [Outcome.map, map_eq_error_iff, ih]
      constructor
      · exact .later hfirst
      · rintro (failed | ⟨-, rest⟩)
        · cases hfirst.symm.trans failed
        · exact rest

end Verdict.Evaluator
