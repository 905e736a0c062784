import Verdict.Proofs.Evaluator.Comparison
import Verdict.Proofs.Numeric.Digits
/-!
# Integers and their texts in the data

A stored text that writes a number is compared as that number, and one that writes zero the short
way is empty like zero. So it makes no difference whether an integer is stored or its text
(`call_of_int_alike_text`), except where an error shows the stored value: the text is shown between
quotes.
-/

namespace Verdict

namespace Value

variable {n : Int} {literal : String}

theorem toText_int (hn : n.natAbs < longBound) : (int n).toText = .ok (integerText n) := by
  have hshown : (int n).toText = (int n).shown := by simp only [toText]
  rw [hshown, shown, integerText?, if_pos hn]

theorem toNumber?_integerText (hn : n.natAbs < longBound) :
    (text (integerText n)).toNumber? = some (.int n) := by
  rw [toNumber?_text, Number.ofText?_integerText hn]

/-- Zero is empty, and so is its text. -/
theorem isEmpty_integerText (hn : n.natAbs < longBound) :
    (text (integerText n)).isEmpty = (int n).isEmpty := by
  have hread := Number.ofText?_integerText hn
  have hempty : integerText n ≠ "" := by
    intro h
    have hnone : Number.ofText? "" = none := by decide
    rw [h, hnone] at hread
    cases hread
  have hzero : integerText n = "0" ↔ n = 0 := by
    constructor
    · intro h
      have hzero : Number.ofText? "0" = some (.int 0) := by decide
      rw [h, hzero] at hread
      cases hread
      rfl
    · rintro rfl
      decide
  rw [isEmpty, isEmpty, decide_eq_false hempty, Bool.false_or, Bool.decide_congr hzero]

/-- An integer and its text equal the same literals: those that read as its number. -/
theorem equals_integerText (hn : n.natAbs < longBound) (literal : String) :
    (text (integerText n)).equals literal = (int n).equals literal := by
  have hnumber : (int n).toNumber? = some (.int n) := rfl
  unfold equals
  dsimp only
  rw [toNumber?_integerText hn, hnumber, toText_int hn]
  rfl

end Value

namespace Evaluator

/-- Whether two answers differ at most in how an error shows a stored value. -/
inductive Alike : Answer → Answer → Prop
  /-- The answers are the same. -/
  | same (r : Answer) : Alike r r
  /-- Both say that the same literal is no number, and each shows a value of its own. -/
  | shown (literal s t : String) : Alike (.error (.declared (.order (.notNumeric literal s))))
      (.error (.declared (.order (.notNumeric literal t))))

/-- The evaluator with a value stored under a key. -/
def storing (E : Evaluator) (key : String) (v : Value) : Evaluator :=
  { E with data := E.data.insert key v }

variable {E : Evaluator} {key : String} {v w : Value} {n : Int} {args : List String}

theorem find?_storing (E : Evaluator) (key : String) (v : Value) (k : String) :
    (E.storing key v).data.find? k = if k = key then some v else E.data.find? k :=
  Table.find?_insert E.data key k v

/-- An integer and its text are on the same side of every literal. -/
theorem ordered_alike (hn : n.natAbs < longBound) (accept : Ordering → Bool) (literal : String) :
    Alike (ordered accept (.int n) literal) (ordered accept (.text (integerText n)) literal) := by
  have hint : (Value.int n).toNumber? = some (.int n) := rfl
  have htext := Value.toNumber?_integerText hn
  cases hliteral : Number.ofText? literal with
  | some y =>
    rw [ordered, ordered, Value.order_of_numbers hint hliteral,
      Value.order_of_numbers htext hliteral]
    exact .same _
  | none =>
    have hshown : (Value.int n).shown = .ok (integerText n) := by
      rw [Value.shown, integerText?, if_pos hn]
    have horder : ∀ {v : Value} {s : String}, v.toNumber? = some (.int n) → v.shown = .ok s →
        ordered accept v literal = .error (.declared (.order (.notNumeric literal s))) := by
      intro v s hv hs
      unfold ordered Value.order
      simp only [hv, hliteral, hs]
      rfl
    rw [horder hint hshown, horder htext (by rw [Value.shown])]
    exact .shown _ _ _

/-- Two stored values that a comparison cannot tell apart are not told apart by asking for it. -/
theorem comparing_alike {p : Predicate} {compare : Value → String → Answer}
    (h : ∀ literal, Alike (compare v literal) (compare w literal)) :
    Alike ((E.storing key v).comparing p args compare)
      ((E.storing key w).comparing p args compare) := by
  unfold comparing withValue
  split
  · next k literal =>
    rw [find?_storing, find?_storing]
    by_cases hk : k = key
    · rw [if_pos hk, if_pos hk]
      exact h literal
    · rw [if_neg hk, if_neg hk]
      exact .same _
  · exact .same _

/-- No predicate tells a stored integer from its text, but for how an error shows it. -/
theorem answer_alike (hn : n.natAbs < longBound) (E : Evaluator) (key : String) (p : Predicate)
    (args : List String) (bit : Bool) :
    Alike ((E.storing key (.int n)).answer p args bit)
      ((E.storing key (.text (integerText n))).answer p args bit) := by
  cases p with
  | present =>
    unfold answer
    dsimp only
    split
    · next k =>
      rw [find?_storing, find?_storing]
      by_cases hk : k = key
      · rw [if_pos hk, if_pos hk, Option.any_some, Option.any_some, Value.isEmpty_integerText hn]
        exact .same _
      · rw [if_neg hk, if_neg hk]
        exact .same _
    · exact .same _
  | eq =>
    refine comparing_alike fun literal => ?_
    rw [equalTo, equalTo, Value.equals_integerText hn]
    exact .same _
  | neq =>
    refine comparing_alike fun literal => ?_
    rw [equalTo, equalTo, Value.equals_integerText hn]
    exact .same _
  | lt | lte | gt | gte => exact comparing_alike fun literal => ordered_alike hn _ literal
  -- the other predicates read no data
  | _ => exact .same _

/-- **An integer and its text are interchangeable.** Whatever is asked with whatever arguments, an
evaluator that stores an integer of no more digits than the limit answers as the one does that
stores the integer's text; if the answer is an error, the two may show the stored value differently.
-/
theorem call_of_int_alike_text (hn : n.natAbs < longBound) (E : Evaluator) (key name : String)
    (args : List String) (bits : Bits) :
    Alike ((E.storing key (.int n)).call name args bits).result
      ((E.storing key (.text (integerText n))).call name args bits).result := by
  unfold call
  cases Predicate.ofName? name with
  | none => exact .same _
  | some p => exact answer_alike hn E key p args (bits 0)

/-- A number is held against a word: both are refused, and the text is shown between quotes. -/
theorem call_of_int_alike_text_word :
    let E := withNumber .null
    (12 : Int).natAbs < longBound ∧
      Alike ((E.storing "n" (.int 12)).call "lt" ["n", "many"] fun _ => false).result
        ((E.storing "n" (.text (integerText 12))).call "lt" ["n", "many"] fun _ => false).result ∧
      ((E.storing "n" (.int 12)).call "lt" ["n", "many"] fun _ => false).result =
        .error (.declared (.order (.notNumeric "many" "12"))) := by
  intro E
  have hn : (12 : Int).natAbs < longBound := lt_longBound_iff.2 (by decide)
  refine ⟨hn, call_of_int_alike_text hn E "n" "lt" ["n", "many"] _, ?_⟩
  decide +kernel

end Evaluator

end Verdict
