import Verdict.Evaluator.Basic
import Verdict.Proofs.Evaluator.LongValue
import Verdict.Proofs.Numeric.ExactValue
/-!
# Comparing stored values

Six predicates compare a stored value with a literal. Two of them ask for equality, which falls back
on what the value says, and four ask for an order, which only numbers and texts have. The two
questions are answered apart from each other, and this module says where the answers agree.

Where there is an order, equality is that order being level, unless the value is `NaN`
(`equals_of_order`). So below, level and above exclude each other and one of them holds, and the
other three predicates are made up of them (`comparisons_cohere`).

Between numbers the order is the sign of the exact difference, and so it falls when the literal
grows (`order_is_exact`). Every predicate then answers as the comparison of the exact values does,
with one exception: `NaN` stands on a level with every number where it should stand in no order to
any, so `lte` and `gte` hold of it (`call_comparison`).
-/

namespace Verdict

/-! ## Six comparisons -/

/-- The ways to compare two numbers: below, at most, above, at least, the same, not the same. -/
inductive Comparison where
  | lt
  | le
  | gt
  | ge
  | eq
  | ne
  deriving DecidableEq, Repr

namespace Comparison

/-- Whether a comparison holds of two numbers, by their exact values. `NaN` differs from everything,
and no other comparison holds of it. -/
def holds (c : Comparison) (x y : Number) : Bool :=
  match x.value?, y.value? with
  | some a, some b =>
    match c with
    | .lt => a < b
    | .le => a ≤ b
    | .gt => b < a
    | .ge => b ≤ a
    | .eq => a = b
    | .ne => a ≠ b
  | _, _ => c = .ne

/-- Whether a comparison holds of two things in the given order. -/
def accepts : Comparison → Ordering → Bool
  | .lt, o => o.isLT
  | .le, o => o.isLE
  | .gt, o => o.isGT
  | .ge, o => o.isGE
  | .eq, o => o.isEq
  | .ne, o => o.isNe

/-- The predicate that asks for a comparison. -/
def predicate : Comparison → Predicate
  | .lt => .lt
  | .le => .lte
  | .gt => .gt
  | .ge => .gte
  | .eq => .eq
  | .ne => .neq

/-- A comparison of numbers with exact values is one of their order. -/
theorem holds_eq_accepts {x y : Number} {a b : ExtendedRat} (hx : x.value? = some a)
    (hy : y.value? = some b) (c : Comparison) : c.holds x y = c.accepts (cmp a b) := by
  unfold holds
  rw [hx, hy]
  rcases lt_trichotomy a b with h | h | h
  · rw [(cmp_eq_lt_iff a b).2 h]
    cases c <;> simp [accepts, h, h.le, h.ne, h.not_gt, h.not_ge]
  · rw [(cmp_eq_eq_iff a b).2 h]
    cases c <;> simp [accepts, h]
  · rw [(cmp_eq_gt_iff a b).2 h]
    cases c <;> simp [accepts, h, h.le, h.ne', h.not_gt, h.not_ge]

theorem holds_nan (c : Comparison) (y : Number) : c.holds (.float .nan) y = decide (c = .ne) := rfl

end Comparison

/-! ## Order and equality of values -/

namespace Value

variable {v : Value} {literal : String} {x y : Number} {o : Ordering}

/-- The sign of a stored value against a literal: -1, 0 or 1. -/
def orderSign (stored : Value) (literal : String) : Except (Failure OrderError) SignType :=
  (stored.order literal).map signOf

theorem toNumber?_text (s : String) : (Value.text s).toNumber? = Number.ofText? s := rfl

/-- Only `NaN` itself is read as `NaN`. -/
theorem toNumber?_eq_nan_iff : v.toNumber? = some (.float .nan) ↔ v = .float .nan := by
  constructor
  · intro h
    cases v with
    | float x => cases h; rfl
    | text s => exact absurd rfl (Number.ofText?_ne_nan h)
    | _ => cases h
  · rintro rfl
    rfl

theorem order_of_numbers (hx : v.toNumber? = some x) (hy : Number.ofText? literal = some y) :
    v.order literal = .ok (orderNumbers x y) := by
  unfold order
  simp only [hx, hy]

theorem order_of_text {s : String} (hs : Number.ofText? s = none) :
    (Value.text s).order literal = .ok (compare s literal) := by
  unfold order
  simp only [toNumber?_text, hs]

theorem equals_of_numbers (hx : v.toNumber? = some x) (hy : Number.ofText? literal = some y) :
    v.equals literal = .ok (x.equal y) := by
  cases v with
  | null | bool b => cases hx
  | _ => simp only [equals, hx, hy]

theorem equals_of_text {s : String} (hs : Number.ofText? s = none) :
    (Value.text s).equals literal = .ok (decide (s = literal)) := by
  simp only [equals, toNumber?_text, hs, toText, Except.map]

/-- Two numbers with exact values are in the order of these. -/
theorem orderNumbers_of_values {a b : ExtendedRat} (hx : x.value? = some a)
    (hy : y.value? = some b) : orderNumbers x y = cmp a b := by
  rw [orderNumbers, Number.order?_eq_cmp hx hy, Option.getD_some]

/-- Two numbers with exact values are equal exactly when they are on a level. -/
theorem equal_of_values {a b : ExtendedRat} (hx : x.value? = some a) (hy : y.value? = some b) :
    x.equal y = (cmp a b).isEq := by
  rw [Number.equal, Number.order?_eq_cmp hx hy]
  cases cmp a b <;> rfl

/-- What is read from a value other than `NaN` has an exact value. -/
theorem exists_value_of_toNumber? (hnan : v ≠ .float .nan) (hx : v.toNumber? = some x) :
    ∃ a, x.value? = some a := by
  refine Option.ne_none_iff_exists'.1 fun hnone => hnan ?_
  rw [Number.value?_eq_none_iff] at hnone
  exact toNumber?_eq_nan_iff.1 (hnone ▸ hx)

/-- **Equality is being on a level.** Where a value other than `NaN` has an order against a literal,
it is equal to the literal exactly when the order is level. -/
theorem equals_of_order (hnan : v ≠ .float .nan) (ho : v.order literal = .ok o) :
    v.equals literal = .ok o.isEq := by
  -- both numbers, or a text that is compared as one
  rcases order_isOk_iff.1 ⟨o, ho⟩ with ⟨hx, hy⟩ | ⟨hx, hstring⟩
  · obtain ⟨x, hx⟩ := Option.isSome_iff_exists.1 hx
    obtain ⟨y, hy⟩ := Option.isSome_iff_exists.1 hy
    obtain ⟨a, ha⟩ := exists_value_of_toNumber? hnan hx
    obtain ⟨b, hb⟩ := Number.exists_value_of_ofText? hy
    rw [order_of_numbers hx hy, orderNumbers_of_values ha hb, Except.ok.injEq] at ho
    rw [equals_of_numbers hx hy, equal_of_values ha hb, ho]
  · cases v with
    | text s =>
      rw [order_of_text hx, Except.ok.injEq] at ho
      rw [equals_of_text hx, ← ho]
      by_cases hs : s = literal
      · have hself : compare literal literal = .eq := Std.ReflCmp.compare_self
        rw [hs, hself, decide_eq_true rfl]
        rfl
      · have hne : compare s literal ≠ .eq := fun h => hs (Std.LawfulEqCmp.eq_of_compare h)
        rw [decide_eq_false hs]
        cases h : compare s literal with
        | eq => exact absurd h hne
        | lt => rfl
        | gt => rfl
    | _ => cases hstring

/-- **Order is the sign of the exact difference.** -/
theorem orderSign_of_numbers (hnan : v ≠ .float .nan) (hx : v.toNumber? = some x)
    (hy : Number.ofText? literal = some y) :
    ∃ a b, x.value? = some a ∧ y.value? = some b ∧
      v.orderSign literal = .ok (SignType.sign (a.minus b)) := by
  obtain ⟨a, ha⟩ := exists_value_of_toNumber? hnan hx
  obtain ⟨b, hb⟩ := Number.exists_value_of_ofText? hy
  refine ⟨a, b, ha, hb, ?_⟩
  rw [orderSign, order_of_numbers hx hy, orderNumbers_of_values ha hb, ExtendedRat.sign_minus]
  rfl

/-- The order against a number does not rise when the number does. -/
theorem orderSign_antitone {low high : String} {z : Number} (hnan : v ≠ .float .nan)
    (hx : v.toNumber? = some x) (hlow : Number.ofText? low = some y)
    (hhigh : Number.ofText? high = some z) (hle : Comparison.le.holds y z = true) :
    ∃ o p, v.order low = .ok o ∧ v.order high = .ok p ∧ signOf p ≤ signOf o := by
  obtain ⟨a, ha⟩ := exists_value_of_toNumber? hnan hx
  obtain ⟨b, hb⟩ := Number.exists_value_of_ofText? hlow
  obtain ⟨c, hc⟩ := Number.exists_value_of_ofText? hhigh
  have hbc : b ≤ c := by
    unfold Comparison.holds at hle
    rw [hb, hc] at hle
    exact of_decide_eq_true hle
  refine ⟨cmp a b, cmp a c, ?_, ?_, ExtendedRat.signOf_cmp_antitone a hbc⟩
  · rw [order_of_numbers hx hlow, orderNumbers_of_values ha hb]
  · rw [order_of_numbers hx hhigh, orderNumbers_of_values ha hc]

/-- Two texts that have an order against each other are both numbers or both none, and turning them
round turns the order round. -/
theorem order_swap {s t : String} {o p : Ordering} (hs : (text s).order t = .ok o)
    (ht : (text t).order s = .ok p) : p = o.swap := by
  rcases order_isOk_iff.1 ⟨o, hs⟩ with ⟨hx, hy⟩ | ⟨hx, -⟩
  · rw [toNumber?_text] at hx
    obtain ⟨x, hx⟩ := Option.isSome_iff_exists.1 hx
    obtain ⟨y, hy⟩ := Option.isSome_iff_exists.1 hy
    obtain ⟨a, ha⟩ := Number.exists_value_of_ofText? hx
    obtain ⟨b, hb⟩ := Number.exists_value_of_ofText? hy
    rw [order_of_numbers (v := text s) hx hy, orderNumbers_of_values ha hb, Except.ok.injEq] at hs
    rw [order_of_numbers (v := text t) hy hx, orderNumbers_of_values hb ha, Except.ok.injEq] at ht
    rw [← hs, ← ht, cmp_swap]
  · rcases order_isOk_iff.1 ⟨p, ht⟩ with ⟨-, hs'⟩ | ⟨hy, -⟩
    · exact absurd hx (Option.isSome_iff_ne_none.1 hs')
    · rw [order_of_text hx, Except.ok.injEq] at hs
      rw [order_of_text hy, Except.ok.injEq] at ht
      rw [← hs, ← ht]
      exact Std.OrientedCmp.eq_swap

/-- A text has no order against another exactly if it is a number and the other is none. -/
theorem order_eq_error_iff {s t : String} :
    (∃ e, (text s).order t = .error e) ↔
      (Number.ofText? s).isSome ∧ Number.ofText? t = none := by
  have hok : (∃ e, (text s).order t = .error e) ↔ ¬ ∃ o, (text s).order t = .ok o := by
    cases (text s).order t <;> simp
  have hstring : (text s).isString = true := rfl
  rw [hok, order_isOk_iff, HasOrder, ComparesNumbers, toNumber?_text, hstring]
  cases Number.ofText? s <;> cases Number.ofText? t <;> simp

end Value

/-! ## The predicates that compare -/

namespace Evaluator

variable {E : Evaluator} {key literal : String} {v : Value} {x y : Number}

theorem result_call (p : Predicate) (args : List String) (bits : Bits) :
    (E.call p.name args bits).result = E.answer p args (bits 0) := by
  rw [call, Predicate.ofName?_name]

theorem comparing_of_find? {p : Predicate} {compare : Value → String → Answer}
    (hv : E.data.find? key = some v) :
    E.comparing p [key, literal] compare = compare v literal := by
  rw [comparing, withValue, hv]

/-- Where there is an order, each of the six predicates asks for its own outcomes of it. -/
theorem call_of_order {o : Ordering} (hv : E.data.find? key = some v) (hnan : v ≠ .float .nan)
    (ho : v.order literal = .ok o) (c : Comparison) (bits : Bits) :
    (E.call c.predicate.name [key, literal] bits).result = .ok (c.accepts o) := by
  have hordered : ∀ accept : Ordering → Bool, ordered accept v literal = .ok (accept o) := by
    intro accept
    rw [ordered, ho]
  have hequal : equalTo v literal = .ok o.isEq := by
    rw [equalTo, Value.equals_of_order hnan ho, orFault]
  rw [result_call]
  cases c with
  | lt | le | gt | ge =>
    rw [Comparison.predicate, answer, comparing_of_find? hv]
    exact hordered _
  | eq =>
    rw [Comparison.predicate, answer, comparing_of_find? hv]
    exact hequal
  | ne =>
    rw [Comparison.predicate, answer, comparing_of_find? hv, hequal]
    cases o <;> rfl

/-- **Equality and order cohere.** Where a stored value other than `NaN` has an order against a
literal, all six predicates have an answer. Exactly one of `lt`, `eq` and `gt` holds, and `lte`,
`gte` and `neq` hold of those two that each of them is made up of. -/
theorem comparisons_cohere (bits : Bits) (hv : E.data.find? key = some v)
    (hnan : v ≠ .float .nan) (hordered : ∃ o, v.order literal = .ok o) :
    ∃ lt eq gt : Bool,
      (E.call "lt" [key, literal] bits).result = .ok lt ∧
      (E.call "eq" [key, literal] bits).result = .ok eq ∧
      (E.call "gt" [key, literal] bits).result = .ok gt ∧
      [lt, eq, gt].count true = 1 ∧
      (E.call "lte" [key, literal] bits).result = .ok (lt || eq) ∧
      (E.call "gte" [key, literal] bits).result = .ok (gt || eq) ∧
      (E.call "neq" [key, literal] bits).result = .ok (lt || gt) := by
  obtain ⟨o, ho⟩ := hordered
  have hcall := fun c => call_of_order hv hnan ho c bits
  refine ⟨o.isLT, o.isEq, o.isGT, hcall .lt, hcall .eq, hcall .gt, ?_, ?_, ?_, ?_⟩
  · cases o <;> rfl
  · have hle : Comparison.le.accepts o = (o.isLT || o.isEq) := by cases o <;> rfl
    exact hle ▸ hcall .le
  · have hge : Comparison.ge.accepts o = (o.isGT || o.isEq) := by cases o <;> rfl
    exact hge ▸ hcall .ge
  · have hne : Comparison.ne.accepts o = (o.isLT || o.isGT) := by cases o <;> rfl
    exact hne ▸ hcall .ne

/-- An evaluator on a leap day, with one number in its data. -/
def withNumber (v : Value) : Evaluator :=
  ⟨.ofList [("n", v)], ⟨2016, 2, 29, by decide, by decide⟩, .empty⟩

/-- An integer that no floating-point number is equal to, against the nearest one below it. -/
theorem comparisons_cohere_beside_float :
    let v : Value := .int 9007199254740993
    let E := withNumber v
    let args := ["n", "9007199254740992.0"]
    E.data.find? "n" = some v ∧ v ≠ .float .nan ∧ v.order "9007199254740992.0" = .ok .gt ∧
      ∃ lt eq gt : Bool, (E.call "lt" args fun _ => false).result = .ok lt ∧
        (E.call "eq" args fun _ => false).result = .ok eq ∧
        (E.call "gt" args fun _ => false).result = .ok gt ∧ [lt, eq, gt].count true = 1 := by
  intro v E args
  have hv : E.data.find? "n" = some v := rfl
  have ho : v.order "9007199254740992.0" = .ok .gt := by decide +kernel
  obtain ⟨lt, eq, gt, hlt, heq, hgt, hcount, -⟩ :=
    comparisons_cohere (fun _ => false) hv nofun ⟨.gt, ho⟩
  exact ⟨hv, nofun, ho, lt, eq, gt, hlt, heq, hgt, hcount⟩

/-! ## Numbers -/

/-- Against a number, `NaN` is taken to be on a level with it, and still not to be equal to it. -/
theorem call_of_nan (hv : E.data.find? key = some (.float .nan))
    (hy : Number.ofText? literal = some y) (c : Comparison) (bits : Bits) :
    (E.call c.predicate.name [key, literal] bits).result =
      .ok (decide (c = .le ∨ c = .ge ∨ c = .ne)) := by
  have hx : (Value.float .nan).toNumber? = some (.float .nan) := rfl
  have ho : (Value.float .nan).order literal = .ok .eq := Value.order_of_numbers hx hy
  have he : (Value.float .nan).equals literal = .ok false := Value.equals_of_numbers hx hy
  rw [result_call]
  cases c with
  | lt | le | gt | ge =>
    rw [Comparison.predicate, answer, comparing_of_find? hv, ordered, ho]
    rfl
  | eq | ne =>
    rw [Comparison.predicate, answer, comparing_of_find? hv, equalTo, he]
    rfl

/-- **Numbers are compared as numbers.** Where a stored value and a literal are both numbers, each
predicate answers as the comparison of their exact values does, unless the value is `NaN` and the
predicate is `lte` or `gte`: these two hold of `NaN`, as their comparisons never do. -/
theorem call_comparison (hv : E.data.find? key = some v) (hx : v.toNumber? = some x)
    (hy : Number.ofText? literal = some y) (c : Comparison) (bits : Bits) :
    ((E.call c.predicate.name [key, literal] bits).result = .ok (c.holds x y) ↔
      ¬ (v = .float .nan ∧ (c = .le ∨ c = .ge))) ∧
    (v = .float .nan ∧ (c = .le ∨ c = .ge) →
      (E.call c.predicate.name [key, literal] bits).result = .ok true ∧ c.holds x y = false) := by
  by_cases hnan : v = .float .nan
  · subst hnan
    cases hx
    rw [call_of_nan hv hy, Comparison.holds_nan]
    cases c <;> simp
  · obtain ⟨a, ha⟩ := Value.exists_value_of_toNumber? hnan hx
    obtain ⟨b, hb⟩ := Number.exists_value_of_ofText? hy
    have ho : v.order literal = .ok (cmp a b) := by
      rw [Value.order_of_numbers hx hy, Value.orderNumbers_of_values ha hb]
    rw [call_of_order hv hnan ho, Comparison.holds_eq_accepts ha hb]
    exact ⟨iff_of_true rfl fun h => hnan h.1, fun h => absurd h.1 hnan⟩

/-- A text in digits of another script, against a decimal below it. -/
theorem call_comparison_of_text :
    let v : Value := .text " ١٢ "
    (withNumber v).data.find? "n" = some v ∧ v.toNumber? = some (.int 12) ∧
      Number.ofText? "12.0" = some (.float (.ofInt 12)) ∧
      ((withNumber v).call "gte" ["n", "12.0"] fun _ => false).result = .ok true := by
  intro v
  have hv : (withNumber v).data.find? "n" = some v := rfl
  have hx : v.toNumber? = some (.int 12) := by decide +kernel
  have hy : Number.ofText? "12.0" = some (.float (.ofInt 12)) := by decide +kernel
  have hholds : Comparison.ge.holds (.int 12) (.float (.ofInt 12)) = true := by decide +kernel
  have hcall := (call_comparison hv hx hy .ge fun _ => false).1.2 nofun
  rw [hholds] at hcall
  exact ⟨hv, hx, hy, hcall⟩

/-- `NaN` is not below 1 and not equal to it, and `lte` holds all the same. -/
theorem call_lte_of_nan :
    (withNumber (.float .nan)).data.find? "n" = some (.float .nan) ∧
      (Value.float .nan).toNumber? = some (.float .nan) ∧ Number.ofText? "1" = some (.int 1) ∧
      ((withNumber (.float .nan)).call "lte" ["n", "1"] fun _ => false).result = .ok true ∧
      Comparison.le.holds (.float .nan) (.int 1) = false :=
  ⟨rfl, rfl, by decide +kernel, by decide +kernel, rfl⟩

/-! ## The order of numbers -/

theorem signOf_swap (o : Ordering) : signOf o.swap = -signOf o := by
  cases o <;> rfl

/-- What is above something stays so when the order rises. -/
theorem accepts_of_above {o p : Ordering} (h : signOf p ≤ signOf o) {c : Comparison}
    (hc : c = .gt ∨ c = .ge) : c.accepts p ≤ c.accepts o := by
  revert h
  rcases hc with rfl | rfl <;> cases o <;> cases p <;> decide

/-- What is below something stays so when the order falls. -/
theorem accepts_of_below {o p : Ordering} (h : signOf p ≤ signOf o) {c : Comparison}
    (hc : c = .lt ∨ c = .le) : c.accepts o ≤ c.accepts p := by
  revert h
  rcases hc with rfl | rfl <;> cases o <;> cases p <;> decide

/-- **One order of all numbers.** The order of a stored number against a literal that is a number is
the sign of the exact difference of the two. It does not rise when the literal grows, so that `gt`
and `gte` can only cease to hold and `lt` and `lte` can only begin to. Of two texts that have an
order against each other, turning them round turns the sign round; and a text has no order against
another exactly if it is a number and the other is none. -/
theorem order_is_exact :
    (∀ (v : Value) (literal : String) (x y : Number), v ≠ .float .nan → v.toNumber? = some x →
      Number.ofText? literal = some y → ∃ a b, x.value? = some a ∧ y.value? = some b ∧
        v.orderSign literal = .ok (SignType.sign (a.minus b))) ∧
    (∀ (v : Value) (low high : String) (x y z : Number), v ≠ .float .nan →
      v.toNumber? = some x → Number.ofText? low = some y → Number.ofText? high = some z →
      Comparison.le.holds y z = true →
      (∃ i j, v.orderSign low = .ok i ∧ v.orderSign high = .ok j ∧ j ≤ i) ∧
      ∀ (E : Evaluator) (key : String) (bits : Bits), E.data.find? key = some v →
        (∀ name ∈ ["gt", "gte"], ∃ atLow atHigh : Bool,
          (E.call name [key, low] bits).result = .ok atLow ∧
          (E.call name [key, high] bits).result = .ok atHigh ∧ atHigh ≤ atLow) ∧
        ∀ name ∈ ["lt", "lte"], ∃ atLow atHigh : Bool,
          (E.call name [key, low] bits).result = .ok atLow ∧
          (E.call name [key, high] bits).result = .ok atHigh ∧ atLow ≤ atHigh) ∧
    (∀ (s t : String) (i j : SignType), (Value.text s).orderSign t = .ok i →
      (Value.text t).orderSign s = .ok j → i = -j) ∧
    ∀ s t : String, (∃ e, (Value.text s).orderSign t = .error e) ↔
      (Number.ofText? s).isSome ∧ Number.ofText? t = none := by
  refine ⟨fun v literal x y => Value.orderSign_of_numbers, ?_, ?_, ?_⟩
  · intro v low high x y z hnan hx hlow hhigh hle
    obtain ⟨o, p, ho, hp, hop⟩ := Value.orderSign_antitone hnan hx hlow hhigh hle
    refine ⟨⟨signOf o, signOf p, ?_, ?_, hop⟩, fun E key bits hv => ⟨?_, ?_⟩⟩
    · rw [Value.orderSign, ho, Except.map]
    · rw [Value.orderSign, hp, Except.map]
    · -- above a larger literal is above a smaller one
      have habove : ∀ c : Comparison, c = .gt ∨ c = .ge → ∃ atLow atHigh : Bool,
          (E.call c.predicate.name [key, low] bits).result = .ok atLow ∧
          (E.call c.predicate.name [key, high] bits).result = .ok atHigh ∧ atHigh ≤ atLow :=
        fun c hc => ⟨c.accepts o, c.accepts p, call_of_order hv hnan ho c bits,
          call_of_order hv hnan hp c bits, accepts_of_above hop hc⟩
      simp only [List.forall_mem_cons, List.not_mem_nil, false_implies, implies_true, and_true]
      exact ⟨habove .gt (.inl rfl), habove .ge (.inr rfl)⟩
    · -- and below a smaller one is below a larger one
      have hbelow : ∀ c : Comparison, c = .lt ∨ c = .le → ∃ atLow atHigh : Bool,
          (E.call c.predicate.name [key, low] bits).result = .ok atLow ∧
          (E.call c.predicate.name [key, high] bits).result = .ok atHigh ∧ atLow ≤ atHigh :=
        fun c hc => ⟨c.accepts o, c.accepts p, call_of_order hv hnan ho c bits,
          call_of_order hv hnan hp c bits, accepts_of_below hop hc⟩
      simp only [List.forall_mem_cons, List.not_mem_nil, false_implies, implies_true, and_true]
      exact ⟨hbelow .lt (.inl rfl), hbelow .le (.inr rfl)⟩
  · intro s t i j hi hj
    obtain ⟨o, ho, rfl⟩ := map_eq_ok_iff.1 hi
    obtain ⟨p, hp, rfl⟩ := map_eq_ok_iff.1 hj
    rw [Value.order_swap hp ho, signOf_swap]
  · intro s t
    simp only [Value.orderSign, map_eq_error_iff]
    exact Value.order_eq_error_iff

end Evaluator

end Verdict
