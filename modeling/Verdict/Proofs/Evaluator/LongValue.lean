import Verdict.Proofs.Attempt
import Verdict.Value.Comparison
/-!
# Values that cannot be written

An integer with more digits than the limit cannot be written, and neither can a collection in which
such an integer stands, at whatever depth. Nothing else is in the way of writing a value. This
module says so (`shown_failsOnly`, `toText_failsOnly`) and draws from it when comparing a
stored value with a literal meets the limit: numbers are compared as numbers, so it does only where
the comparison falls back on what the value says, or where an error message has to show the value.
-/

namespace Verdict.Value

/-! ## Integers inside values -/

/-- The values that stand directly in a value. -/
def parts : Value → List Value
  | .list xs | .tuple xs | .set xs | .frozenset xs => xs
  | .map es => es.flatMap fun e => [e.1, e.2]
  | _ => []

/-- Whether an integer beyond the digit limit stands somewhere in a value. -/
inductive HoldsLong : Value → Prop
  /-- The value is such an integer. -/
  | int {n : Int} (long : longBound ≤ n.natAbs) : HoldsLong (.int n)
  /-- Such an integer stands in a part of the value. -/
  | part {v x : Value} (mem : x ∈ v.parts) (inside : HoldsLong x) : HoldsLong v

theorem holdsLong_int_iff {n : Int} : (Value.int n).HoldsLong ↔ longBound ≤ n.natAbs := by
  refine ⟨fun h => ?_, .int⟩
  cases h with
  | int long => exact long
  | part mem _ => exact absurd mem List.not_mem_nil

/-- A value that is no integer is unwritable through one of its parts. -/
theorem holdsLong_iff_parts {v : Value} (hint : ∀ n, v ≠ .int n) :
    v.HoldsLong ↔ ∃ x ∈ v.parts, x.HoldsLong := by
  refine ⟨fun h => ?_, fun ⟨x, mem, inside⟩ => .part mem inside⟩
  cases h with
  | int long => exact absurd rfl (hint _)
  | part mem inside => exact ⟨_, mem, inside⟩

/-- A value without parts that is no integer can be written. -/
theorem not_holdsLong_of_parts_eq_nil {v : Value} (hint : ∀ n, v ≠ .int n) (hparts : v.parts = []) :
    ¬ v.HoldsLong := by
  rw [holdsLong_iff_parts hint, hparts]
  rintro ⟨x, hx, -⟩
  exact List.not_mem_nil hx

theorem integerText?_failsOnly (n : Int) :
    FailsOnly .longInteger (longBound ≤ n.natAbs) (integerText? n) := by
  unfold integerText?
  split
  · next h => exact .ok (Nat.not_le_of_lt h) _
  · next h =>
    intro f
    rw [Except.error.injEq, eq_comm, and_iff_left (Nat.le_of_not_lt h)]

/-! ## Writing values -/

/-- A collection fails to be written as its parts do, whatever is put around them. -/
theorem failsOnly_collection {α : Type} {v : Value} {x : Except Fault α}
    {next : α → Except Fault String}
    (hx : FailsOnly .longInteger (∃ x ∈ v.parts, x.HoldsLong) x) (hint : ∀ n, v ≠ .int n)
    (hnext : ∀ a, ∃ s, next a = .ok s) : FailsOnly .longInteger v.HoldsLong (x >>= next) :=
  (hx.bind_ok hnext).congr (holdsLong_iff_parts hint).symm

mutual

/-- Showing a value fails exactly at an integer beyond the limit. -/
theorem shown_failsOnly (v : Value) : FailsOnly .longInteger v.HoldsLong v.shown := by
  -- only integers are too long themselves; a collection is when one of its members is
  cases v with
  | int n =>
    rw [shown]
    exact (integerText?_failsOnly n).congr holdsLong_int_iff.symm
  | list xs =>
    rw [shown]
    exact failsOnly_collection (shownAll_failsOnly xs) (by simp) fun ts => ⟨_, rfl⟩
  | map es =>
    rw [shown]
    exact failsOnly_collection (shownPairs_failsOnly es) (by simp) fun ts => ⟨_, rfl⟩
  | tuple xs =>
    rw [shown]
    refine failsOnly_collection (shownAll_failsOnly xs) (by simp) fun ts => ?_
    split <;> exact ⟨_, rfl⟩
  | set xs =>
    rw [shown]
    refine failsOnly_collection (shownAll_failsOnly xs) (by simp) fun ts => ?_
    split <;> exact ⟨_, rfl⟩
  | frozenset xs =>
    rw [shown]
    refine failsOnly_collection (shownAll_failsOnly xs) (by simp) fun ts => ?_
    split <;> exact ⟨_, rfl⟩
  | _ =>
    rw [shown]
    exact .ok (not_holdsLong_of_parts_eq_nil (by simp) rfl) _

/-- Showing a row of values fails exactly at an integer beyond the limit in one of them. -/
theorem shownAll_failsOnly (xs : List Value) :
    FailsOnly .longInteger (∃ x ∈ xs, x.HoldsLong) (shownAll xs) := by
  cases xs with
  | nil =>
    rw [shownAll]
    exact .ok (by simp) _
  | cons x xs =>
    have hparts : (x.HoldsLong ∨ ∃ y ∈ xs, y.HoldsLong) ↔ ∃ y ∈ x :: xs, y.HoldsLong := by
      simp only [List.mem_cons, exists_eq_or_imp]
    rw [shownAll]
    refine ((shown_failsOnly x).bind fun t => ?_).congr hparts
    exact (shownAll_failsOnly xs).map

/-- Showing entries fails exactly at an integer beyond the limit in a key or a value. -/
theorem shownPairs_failsOnly (es : List (Value × Value)) :
    FailsOnly .longInteger (∃ x ∈ es.flatMap fun e => [e.1, e.2], x.HoldsLong) (shownPairs es) := by
  cases es with
  | nil =>
    rw [shownPairs]
    exact .ok (by simp) _
  | cons e es =>
    obtain ⟨k, v⟩ := e
    have hparts : (k.HoldsLong ∨ v.HoldsLong ∨
        ∃ x ∈ es.flatMap fun e => [e.1, e.2], x.HoldsLong) ↔
        ∃ x ∈ ((k, v) :: es).flatMap fun e => [e.1, e.2], x.HoldsLong := by
      simp only [List.flatMap_cons, List.cons_append, List.nil_append, List.mem_cons,
        exists_eq_or_imp]
    rw [shownPairs]
    refine ((shown_failsOnly k).bind fun t => ?_).congr hparts
    exact (shown_failsOnly v).bind fun u => (shownPairs_failsOnly es).map

end

/-- Saying a value fails exactly at an integer beyond the limit. -/
theorem toText_failsOnly (v : Value) : FailsOnly .longInteger v.HoldsLong v.toText := by
  cases v with
  | text s => exact .ok (not_holdsLong_of_parts_eq_nil (by simp) rfl) _
  | date d => exact .ok (not_holdsLong_of_parts_eq_nil (by simp) rfl) _
  | moment m => exact .ok (not_holdsLong_of_parts_eq_nil (by simp) rfl) _
  | _ => exact shown_failsOnly _

/-! ## Comparing values with literals -/

/-- Whether a stored value and a literal are compared as numbers. -/
def ComparesNumbers (stored : Value) (literal : String) : Prop :=
  stored.toNumber?.isSome ∧ (Number.ofText? literal).isSome

/-- Whether a stored value has an order against a literal: both are numbers, or the value is a text
that writes none. -/
def HasOrder (stored : Value) (literal : String) : Prop :=
  stored.ComparesNumbers literal ∨ stored.toNumber? = none ∧ stored.isString

/-- Comparing for equality fails exactly where an unwritable value has to be written. -/
theorem equals_failsOnly (v : Value) (literal : String) :
    FailsOnly .longInteger (v.HoldsLong ∧ ¬ v.ComparesNumbers literal) (v.equals literal) := by
  unfold equals
  split
  -- a truth value is spelled and nothing is empty: neither has to be written
  · exact .ok (fun h => not_holdsLong_of_parts_eq_nil (by simp) rfl h.1) _
  · exact .ok (fun h => not_holdsLong_of_parts_eq_nil (by simp) rfl h.1) _
  · split
    -- two numbers are compared as numbers, however long they are
    · next x y hx hy =>
      have hnumbers : v.ComparesNumbers literal := by simp [ComparesNumbers, hx, hy]
      exact .ok (fun h => h.2 hnumbers) _
    · next hnone =>
      refine (toText_failsOnly v).map.congr (and_iff_left ?_).symm
      rintro ⟨hx, hy⟩
      obtain ⟨x, hx⟩ := Option.isSome_iff_exists.1 hx
      obtain ⟨y, hy⟩ := Option.isSome_iff_exists.1 hy
      exact hnone x y hx hy

/-- An order is found exactly between two numbers and for a text that writes no number. -/
theorem order_isOk_iff {v : Value} {literal : String} :
    (∃ o, v.order literal = .ok o) ↔ v.HasOrder literal := by
  unfold order HasOrder ComparesNumbers
  cases hx : v.toNumber? with
  | some x =>
    cases hy : Number.ofText? literal with
    | some y => simp
    | none => cases v.shown <;> simp
  | none => cases v <;> simp [isString, asText?]

/-- Ordering meets the limit exactly when a literal that is no number is held against an unwritable
integer, which the error message would have to show. -/
theorem order_eq_fault_iff {v : Value} {literal : String} {f : Fault} :
    v.order literal = .error (.fault f) ↔
      f = .longInteger ∧ Number.ofText? literal = none ∧
        ∃ n : Int, v = .int n ∧ longBound ≤ n.natAbs := by
  -- among the values that are numbers, only an integer can be too long to be shown
  have hnumber : ∀ x, v.toNumber? = some x →
      (v.HoldsLong ↔ ∃ n : Int, v = .int n ∧ longBound ≤ n.natAbs) := by
    intro x hx
    cases v with
    | int n => simp [holdsLong_int_iff]
    | float y => simpa using not_holdsLong_of_parts_eq_nil (v := .float y) (by simp) rfl
    | text s => simpa using not_holdsLong_of_parts_eq_nil (v := .text s) (by simp) rfl
    | _ => cases hx
  unfold order
  cases hx : v.toNumber? with
  | some x =>
    cases hy : Number.ofText? literal with
    | some y => simp
    | none =>
      have hshown := shown_failsOnly v f
      rw [hnumber x hx] at hshown
      cases hs : v.shown with
      | ok s => rw [hs] at hshown; simpa using hshown
      | error g => rw [hs] at hshown; simpa using hshown
  | none =>
    have hint : ∀ n, v ≠ .int n := by
      rintro n rfl
      cases hx
    cases v <;> simp at hint ⊢

end Verdict.Value
