import Mathlib.Algebra.Ring.Nat
import Verdict.Proofs.Report.Results
/-!
# Which rules are evaluated

A report has results or a failure and does not say what was evaluated for it. `evaluations` lists
the rules that were, each with its own outcome: they are the first of the rules in order, all of
them unless one fails, and then none behind that one. The outcome of the whole is made of theirs
(`evaluateRules_eq`).
-/

namespace Verdict

/-- A rule that is evaluated under a name. -/
structure Evaluation where
  /-- The name. -/
  name : String
  /-- The rule. -/
  rule : String
  /-- How its evaluation ends. -/
  outcome : Outcome ClauseError Bool

namespace Evaluation

/-- The name with the rule. -/
def entry (v : Evaluation) : String × String := (v.name, v.rule)

/-- The outcome that evaluations make in a row. -/
def inRow : List Evaluation → Outcome ClauseError (List RuleResult)
  | [] => .pure []
  | v :: vs => v.outcome.andThen fun b => (inRow vs).map fun rs => ⟨v.name, v.rule, b⟩ :: rs

/-- What an evaluation contributes to the results: a rule that fails has none. -/
def result? (v : Evaluation) : Option RuleResult :=
  match v.outcome.result with
  | .ok b => some ⟨v.name, v.rule, b⟩
  | .error _ => none

/-- An evaluation has a result exactly if its rule has an answer, which is the result's. -/
theorem result?_eq_some_iff {v : Evaluation} {r : RuleResult} :
    v.result? = some r ↔ v.outcome.result = .ok r.holds ∧ r.name = v.name ∧ r.rule = v.rule := by
  obtain ⟨name, rule, holds⟩ := r
  unfold result?
  cases v.outcome.result with
  | error e => simp
  | ok b =>
    simp only [Option.some.injEq, RuleResult.mk.injEq, Except.ok.injEq]
    constructor
    · rintro ⟨rfl, rfl, rfl⟩
      exact ⟨rfl, rfl, rfl⟩
    · rintro ⟨rfl, rfl, rfl⟩
      exact ⟨rfl, rfl, rfl⟩

/-! ### Results

Evaluations have results if each of them contributes one. -/

section Results

variable {vs : List Evaluation} {rs : List RuleResult} (h : vs.map result? = rs.map some)

include h

theorem exists_of_mem {v : Evaluation} (hv : v ∈ vs) : ∃ r ∈ rs, v.result? = some r := by
  have hmem := List.mem_map_of_mem (f := result?) hv
  rw [h, List.mem_map] at hmem
  obtain ⟨r, hr, hresult⟩ := hmem
  exact ⟨r, hr, hresult.symm⟩

theorem exists_of_mem_results {r : RuleResult} (hr : r ∈ rs) : ∃ v ∈ vs, v.result? = some r := by
  have hmem : some r ∈ vs.map result? := by
    rw [h]
    exact List.mem_map_of_mem hr
  exact List.mem_map.1 hmem

/-- What can be told from each evaluation by its result can be told from the results. -/
theorem map_eq_of_results {γ : Type} {f : Evaluation → γ} {g : RuleResult → γ}
    (hfg : ∀ v r, v.result? = some r → f v = g r) : vs.map f = rs.map g := by
  induction vs generalizing rs with
  | nil =>
    rw [List.map_nil, eq_comm, List.map_eq_nil_iff] at h
    rw [h]
    rfl
  | cons v vs ih =>
    cases rs with
    | nil => cases h
    | cons r rs =>
      obtain ⟨hv, hvs⟩ := List.cons.inj h
      rw [List.map_cons, List.map_cons, ih hvs, hfg v r hv]

theorem names_of_results : rs.map RuleResult.name = vs.map name :=
  (map_eq_of_results h fun _ _ hresult => (result?_eq_some_iff.1 hresult).2.1.symm).symm

/-- All results hold exactly when every evaluation says so. -/
theorem allHold_iff : allHold rs = true ↔ ∀ v ∈ vs, v.outcome.result = .ok true := by
  rw [allHold, List.all_eq_true]
  constructor
  · intro hall v hv
    obtain ⟨r, hr, hresult⟩ := exists_of_mem h hv
    rw [(result?_eq_some_iff.1 hresult).1, hall r hr]
  · intro hall r hr
    obtain ⟨v, hv, hresult⟩ := exists_of_mem_results h hr
    exact Except.ok.inj ((result?_eq_some_iff.1 hresult).1.symm.trans (hall v hv))

end Results

end Evaluation

namespace Evaluator

/-- The rules that are evaluated, up to the first that fails. -/
def evaluations (E : Evaluator) : List (String × String) → Bits → List Evaluation
  | [], _ => []
  | (name, rule) :: rest, bits =>
    let first := E.evaluate rule bits
    ⟨name, rule, first⟩ ::
      match first.result with
      | .ok _ => E.evaluations rest (bits.from first.drawn)
      | .error _ => []

section

variable {E : Evaluator} {name rule : String} {rules : List (String × String)} {bits : Bits}

theorem evaluations_of_ok {b : Bool} (h : (E.evaluate rule bits).result = .ok b) :
    E.evaluations ((name, rule) :: rules) bits =
      ⟨name, rule, E.evaluate rule bits⟩ ::
        E.evaluations rules (bits.from (E.evaluate rule bits).drawn) := by
  rw [evaluations, h]

theorem evaluations_of_error {e : Failure ClauseError}
    (h : (E.evaluate rule bits).result = .error e) :
    E.evaluations ((name, rule) :: rules) bits = [⟨name, rule, E.evaluate rule bits⟩] := by
  rw [evaluations, h]

end

section Rows

variable (E : Evaluator) (rules : List (String × String)) (bits : Bits)

/-- What rules in a row come to is what their evaluations make. -/
theorem evaluateRules_eq :
    E.evaluateRules rules bits = Evaluation.inRow (E.evaluations rules bits) := by
  induction rules generalizing bits with
  | nil => rfl
  | cons entry rules ih =>
    obtain ⟨name, rule⟩ := entry
    rw [evaluateRules]
    cases hfirst : (E.evaluate rule bits).result with
    | ok b => rw [evaluations_of_ok hfirst, Evaluation.inRow, ih]
    | error e =>
      rw [evaluations_of_error hfirst, Evaluation.inRow, Outcome.andThen_of_error _ hfirst,
        Outcome.andThen_of_error _ hfirst]

/-- Each of them logs in its turn. -/
theorem log_evaluateRules :
    (E.evaluateRules rules bits).log =
      (E.evaluations rules bits).flatMap fun v => v.outcome.log := by
  induction rules generalizing bits with
  | nil => rfl
  | cons entry rules ih =>
    obtain ⟨name, rule⟩ := entry
    rw [evaluateRules]
    cases hfirst : (E.evaluate rule bits).result with
    | ok b =>
      rw [evaluations_of_ok hfirst, Outcome.andThen_of_ok _ hfirst, List.flatMap_cons, ← ih]
      rfl
    | error e =>
      rw [evaluations_of_error hfirst, Outcome.andThen_of_error _ hfirst, List.flatMap_singleton]

/-- The bits that are taken are those that each of them takes. -/
theorem drawn_evaluateRules :
    (E.evaluateRules rules bits).drawn =
      ((E.evaluations rules bits).map fun v => v.outcome.drawn).sum := by
  induction rules generalizing bits with
  | nil => rfl
  | cons entry rules ih =>
    obtain ⟨name, rule⟩ := entry
    rw [evaluateRules]
    cases hfirst : (E.evaluate rule bits).result with
    | ok b =>
      rw [evaluations_of_ok hfirst, Outcome.andThen_of_ok _ hfirst, List.map_cons, List.sum_cons,
        ← ih]
      rfl
    | error e =>
      rw [evaluations_of_error hfirst, Outcome.andThen_of_error _ hfirst, List.map_singleton,
        List.sum_singleton]

/-- The rules that are evaluated are the first ones. -/
theorem evaluations_prefix_rules : (E.evaluations rules bits).map Evaluation.entry <+: rules := by
  induction rules generalizing bits with
  | nil => exact List.nil_prefix
  | cons entry rules ih =>
    obtain ⟨name, rule⟩ := entry
    cases hfirst : (E.evaluate rule bits).result with
    | ok b =>
      rw [evaluations_of_ok hfirst]
      exact (List.prefix_cons_inj _).2 (ih _)
    | error e =>
      rw [evaluations_of_error hfirst]
      exact (List.prefix_cons_inj _).2 List.nil_prefix

variable {E rules bits}

/-- An evaluation in a row is one from some bit on. -/
theorem outcome_of_mem_evaluations {v : Evaluation} (h : v ∈ E.evaluations rules bits) :
    ∃ rest, v.outcome = E.evaluate v.rule rest := by
  induction rules generalizing bits with
  | nil => exact absurd h List.not_mem_nil
  | cons entry rules ih =>
    obtain ⟨name, rule⟩ := entry
    cases hfirst : (E.evaluate rule bits).result with
    | ok b =>
      rw [evaluations_of_ok hfirst] at h
      rcases List.mem_cons.1 h with rfl | h
      · exact ⟨bits, rfl⟩
      · exact ih h
    | error e =>
      rw [evaluations_of_error hfirst] at h
      rw [List.mem_singleton.1 h]
      exact ⟨bits, rfl⟩

/-- Rules in a row have results exactly when every evaluation has one, and these are the results. -/
theorem evaluateRules_eq_ok_iff {rs : List RuleResult} :
    (E.evaluateRules rules bits).result = .ok rs ↔
      (E.evaluations rules bits).map Evaluation.result? = rs.map some := by
  rw [evaluateRules_eq]
  generalize E.evaluations rules bits = vs
  -- on what was evaluated: a result goes before those of the rest, and an error leaves none
  induction vs generalizing rs with
  | nil => cases rs <;> simp [Evaluation.inRow, Outcome.pure]
  | cons v vs ih =>
    rw [Evaluation.inRow, List.map_cons, Evaluation.result?]
    cases hv : v.outcome.result with
    | error e =>
      rw [Outcome.andThen_of_error _ hv]
      cases rs <;> simp
    | ok b =>
      rw [Outcome.andThen_of_ok _ hv]
      simp only [Outcome.map, map_eq_ok_iff, ih]
      cases rs with
      | nil => simp
      | cons r rs =>
        simp only [List.cons.injEq, List.map_cons, Option.some.injEq]
        constructor
        · rintro ⟨rs', hrs', rfl, rfl⟩
          exact ⟨rfl, hrs'⟩
        · rintro ⟨rfl, hrs⟩
          exact ⟨rs, hrs, rfl, rfl⟩

/-- They fail exactly as one of their evaluations does. -/
theorem exists_failed_iff {e : Failure ClauseError} :
    (∃ v ∈ E.evaluations rules bits, v.outcome.result = .error e) ↔
      (E.evaluateRules rules bits).result = .error e := by
  rw [evaluateRules_eq_error_iff]
  -- on the rules, for any draws: each rule leaves the later ones to the next rule
  induction rules generalizing bits with
  | nil => exact ⟨fun ⟨v, hv, _⟩ => absurd hv List.not_mem_nil, nofun⟩
  | cons entry rules ih =>
    obtain ⟨name, rule⟩ := entry
    cases hfirst : (E.evaluate rule bits).result with
    | ok b =>
      rw [evaluations_of_ok hfirst]
      constructor
      · rintro ⟨v, hv, failed⟩
        rcases List.mem_cons.1 hv with rfl | hv
        · cases hfirst.symm.trans failed
        · exact .later hfirst (ih.1 ⟨v, hv, failed⟩)
      · rintro (failed | ⟨-, rest⟩)
        · cases hfirst.symm.trans failed
        · obtain ⟨v, hv, failed⟩ := ih.2 rest
          exact ⟨v, List.mem_cons_of_mem _ hv, failed⟩
    | error e' =>
      rw [evaluations_of_error hfirst]
      constructor
      · rintro ⟨v, hv, failed⟩
        rw [List.mem_singleton.1 hv] at failed
        exact .here failed
      · rintro (failed | ⟨answered, -⟩)
        · exact ⟨_, List.mem_singleton.2 rfl, failed⟩
        · cases hfirst.symm.trans answered

/-- Where a rule fails, it is the last one that is evaluated, and those before it have answers. -/
theorem exists_evaluations_of_error {e : Failure ClauseError}
    (h : (E.evaluateRules rules bits).result = .error e) :
    ∃ answered failed, E.evaluations rules bits = answered ++ [failed] ∧
      failed.outcome.result = .error e ∧
      ∃ bs : List Bool, answered.map (fun v => v.outcome.result) = bs.map .ok := by
  have failsAt := evaluateRules_eq_error_iff.1 h
  clear h
  induction failsAt with
  | here failed =>
    rw [evaluations_of_error failed]
    exact ⟨[], _, rfl, failed, [], rfl⟩
  | @later _ _ _ _ b answered _ ih =>
    obtain ⟨before, last, hlast, failed, bs, hbefore⟩ := ih
    rw [evaluations_of_ok answered, hlast]
    refine ⟨_ :: before, last, rfl, failed, b :: bs, ?_⟩
    rw [List.map_cons, List.map_cons, hbefore, answered]

/-- Where no rule fails, all are evaluated. -/
theorem entries_of_evaluateRules {rs : List RuleResult}
    (h : (E.evaluateRules rules bits).result = .ok rs) :
    (E.evaluations rules bits).map Evaluation.entry = rules := by
  induction rules generalizing bits rs with
  | nil => rfl
  | cons entry rules ih =>
    obtain ⟨name, rule⟩ := entry
    rw [evaluateRules] at h
    cases hfirst : (E.evaluate rule bits).result with
    | error e =>
      rw [Outcome.andThen_of_error _ hfirst] at h
      cases h
    | ok b =>
      rw [Outcome.andThen_of_ok _ hfirst] at h
      obtain ⟨rest, hrest, -⟩ := map_eq_ok_iff.1 h
      rw [evaluations_of_ok hfirst, List.map_cons, ih hrest]
      rfl

end Rows

end Evaluator

end Verdict
