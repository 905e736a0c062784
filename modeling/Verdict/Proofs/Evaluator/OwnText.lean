import Verdict.Proofs.Evaluator.Interchange
import Verdict.Proofs.Numeric.Shortest
/-!
# Values and their own texts

A value is equal to the literal that says what it says by itself. There are three ways to see this.
A truth value is compared with spellings, and its own text is one of them. The text of a number is
read as the same number, which has an exact value and is therefore equal to itself; the texts of the
infinities and of `NaN` are no numerals, and so they are compared as texts, like those of all other
values.
-/

namespace Verdict

namespace Value

variable {v : Value} {s : String}

theorem equal_self_of_ne_nan {x : Number} (h : x ≠ .float .nan) : x.equal x = true := by
  obtain ⟨a, ha⟩ := Option.ne_none_iff_exists'.1 (Number.value?_eq_none_iff.not.2 h)
  rw [equal_of_values ha ha, cmp_self_eq_eq]
  rfl

/-- A value whose text writes the number that it is, is equal to its text. -/
theorem equals_of_read_back {x : Number} (hx : v.toNumber? = some x)
    (hs : Number.ofText? s = some x) : v.equals s = .ok true := by
  rw [equals_of_numbers hx hs, equal_self_of_ne_nan (Number.ofText?_ne_nan hs)]

/-- **Every value but nothing is equal to its own text.** -/
theorem equals_own_text (hv : v ≠ .null) (hs : v.toText = .ok s) : v.equals s = .ok true := by
  cases v with
  | null => exact absurd rfl hv
  | bool b =>
    simp only [toText, shown, Except.ok.injEq] at hs
    rw [← hs]
    cases b <;> decide
  | int n =>
    have hn : n.natAbs < longBound := by
      refine Classical.byContradiction fun hlong => ?_
      simp only [toText, shown, integerText?, if_neg hlong] at hs
      cases hs
    rw [toText_int hn, Except.ok.injEq] at hs
    rw [← hs]
    exact equals_of_read_back rfl (Number.ofText?_integerText hn)
  | float x =>
    simp only [toText, shown, Except.ok.injEq] at hs
    rw [← hs]
    cases x with
    | nan => decide
    | infinite negative => cases negative <;> decide
    | finite negative rank => exact equals_of_read_back rfl (Binary64.ofText?_text negative rank)
  | text t =>
    simp only [toText, Except.ok.injEq] at hs
    rw [← hs]
    cases ht : Number.ofText? t with
    | some x => exact equals_of_read_back ht ht
    | none => rw [equals_of_text ht, decide_eq_true rfl]
  -- the others are no numbers, and what they say is compared
  | _ =>
    simp only [equals, toNumber?, hs, Except.map, decide_true]

end Value

namespace Evaluator

/-- **Stored values equal their own texts.** Whatever is stored under a key, if it is not nothing
and can be written, then `eq` holds of the key and the value's own text, and `neq` does not. -/
theorem call_of_own_text {E : Evaluator} {key s : String} {v : Value} (bits : Bits)
    (hfound : E.data.find? key = some v) (hv : v ≠ .null) (hs : v.toText = .ok s) :
    v.equals s = .ok true ∧ (E.call "eq" [key, s] bits).result = .ok true ∧
      (E.call "neq" [key, s] bits).result = .ok false := by
  have hequals := Value.equals_own_text hv hs
  have hequal : equalTo v s = .ok true := by rw [equalTo, hequals, orFault]
  refine ⟨hequals, ?_, ?_⟩
  · refine (result_call .eq [key, s] bits).trans ?_
    rw [answer, comparing_of_find? hfound, hequal]
  · refine (result_call .neq [key, s] bits).trans ?_
    rw [answer, comparing_of_find? hfound, hequal]
    rfl

/-- The least positive floating-point number. -/
theorem call_of_own_text_least :
    let v : Value := .float (.finite false ⟨1, by decide⟩)
    let E := withNumber v
    E.data.find? "n" = some v ∧ v ≠ .null ∧ v.toText = .ok "5e-324" ∧
      (E.call "eq" ["n", "5e-324"] fun _ => false).result = .ok true := by
  intro v E
  have hfound : E.data.find? "n" = some v := rfl
  have hv : v ≠ .null := fun h => Value.noConfusion h
  have hs : v.toText = .ok "5e-324" := by
    simp only [v, Value.toText, Value.shown]
    decide +kernel
  exact ⟨hfound, hv, hs, (call_of_own_text (fun _ => false) hfound hv hs).2.1⟩

end Evaluator

end Verdict
