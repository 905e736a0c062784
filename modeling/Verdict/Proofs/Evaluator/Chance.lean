import Verdict.Proofs.Evaluator.Footprint
import Verdict.Report.Basic
/-!
# Rules without chance

The one thing that an evaluation takes from outside are random bits, and the only clauses that have
them in their footprint are those that ask for chance. A rule without such a clause is evaluated in
the same way from every source of bits, and so are rules in a row.
-/

namespace Verdict

/-- Whether a rule uses a predicate that asks for chance, with arguments or without. -/
def UsesChance (rule : String) : Prop :=
  ∃ clause ∈ (Expression.split rule).operands,
    (Clause.parse clause).name = "random" ∨ (Clause.parse clause).name = "sometimes"

instance (rule : String) : Decidable (UsesChance rule) :=
  inferInstanceAs (Decidable (∃ clause ∈ _, _))

/-- The predicates that look at a bit are those that ask for chance. -/
theorem Predicate.footprint_eq_bit_iff {p : Predicate} {args : List String} :
    p.footprint args = .bit ↔ p = .random ∨ p = .sometimes := by
  cases p <;> cases args <;> simp [footprint]

namespace Footprint

/-- Only two predicates ask for chance. -/
theorem name_of_ofCall_eq_bit {name : String} {args : List String} (h : ofCall name args = .bit) :
    name = "random" ∨ name = "sometimes" := by
  unfold ofCall at h
  cases hp : Predicate.ofName? name with
  | none =>
    rw [hp] at h
    cases h
  | some p =>
    rw [hp] at h
    rw [← Predicate.name_of_ofName? hp]
    rcases Predicate.footprint_eq_bit_iff.1 h with rfl | rfl
    · exact .inl rfl
    · exact .inr rfl

/-- An evaluator has everything but the bits in common with itself. -/
theorem agrees_self {f : Footprint} (h : f ≠ .bit) (E : Evaluator) (bits bits' : Bits) :
    f.Agrees E E bits bits' := by
  cases f with
  | bit => exact absurd rfl h
  | nothing => trivial
  | _ => rfl

end Footprint

namespace Evaluator

variable {E : Evaluator}

/-- The source of random bits makes no difference to a rule without chance. -/
theorem evaluate_of_not_usesChance {rule : String} (h : ¬ UsesChance rule) (bits bits' : Bits) :
    E.evaluate rule bits = E.evaluate rule bits' := by
  have hclause : ∀ clause ∈ (Expression.split rule).operands, ∀ bits bits' : Bits,
      (Footprint.ofClause clause).Agrees E E bits bits' := by
    intro clause hclause bits bits'
    refine Footprint.agrees_self (fun hbit => h ⟨clause, hclause, ?_⟩) E bits bits'
    exact Footprint.name_of_ofCall_eq_bit hbit
  refine evaluate_eq_of_agreeOn ?_
  unfold AgreeOn
  cases hsplit : Expression.split rule with
  | single clause =>
    rw [hsplit] at hclause
    exact hclause clause (List.mem_singleton.2 rfl) bits bits'
  | compound left op right =>
    rw [hsplit] at hclause
    exact ⟨hclause left List.mem_cons_self _ _,
      hclause right (List.mem_cons_of_mem _ (List.mem_singleton.2 rfl)) _ _⟩

/-- The source of random bits makes no difference to rules without chance. -/
theorem evaluateRules_of_not_usesChance {rules : List (String × String)}
    (h : ∀ entry ∈ rules, ¬ UsesChance entry.2) (bits bits' : Bits) :
    E.evaluateRules rules bits = E.evaluateRules rules bits' := by
  induction rules generalizing bits bits' with
  | nil => rfl
  | cons entry rules ih =>
    obtain ⟨name, rule⟩ := entry
    obtain ⟨hrule, hrules⟩ := List.forall_mem_cons.1 h
    rw [evaluateRules, evaluateRules, evaluate_of_not_usesChance hrule bits bits']
    refine congrArg (Outcome.andThen _) (funext fun b => ?_)
    rw [ih hrules (bits.from _) (bits'.from _)]

end Evaluator

end Verdict
