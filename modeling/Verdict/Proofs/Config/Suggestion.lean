import Mathlib.Algebra.Order.Field.Basic
import Mathlib.Data.List.MinMax
import Mathlib.Data.Prod.Lex
import Mathlib.Data.Rat.Cast.Order
import Mathlib.Data.String.Basic
import Mathlib.Tactic.Linarith
import Mathlib.Tactic.NormNum
import Verdict.Config.Diagnose
import Verdict.Proofs.Config.Matching
/-!
# The key that is suggested

How alike two keys are is twice their matching size by the sum of their lengths. The search for a
suggestion compares these ratios without dividing and keeps the best key so far; so it takes the
greatest of the near keys by their ratios and then by themselves (`nearestKey?_eq_argmax`).

What bounds a matching size bounds the ratio. A key that the bounds rule out is not near, and no key
is near that is much longer than all the allowed ones.
-/

namespace Verdict

/-! ## Ratios -/

/-- Twice a number of characters by the sum of the lengths of an allowed key and a given one. -/
def ratioOf (n : Nat) (allowed given : String) : ℚ := 2 * n / (allowed.length + given.length)

/-- How alike an allowed key is to a given one. -/
def likeness (allowed given : String) : ℚ :=
  ratioOf (matchingSize allowed.toList given.toList) allowed given

/-- The place of an allowed key among the others: by its ratio, and then by itself. -/
def rank (given allowed : String) : ℚ ×ₗ String := toLex (likeness allowed given, allowed)

section Ratios

variable {allowed given : String} {n : Nat}

/-- Whether texts are near is decided on integers, and is the comparison of their ratio with three
fifths. -/
theorem isNear_iff (h : 0 < allowed.length + given.length) :
    isNear n (allowed.length + given.length) = true ↔ 3 / 5 ≤ ratioOf n allowed given := by
  have hpos : (0 : ℚ) < allowed.length + given.length := by exact_mod_cast h
  have hcast : 3 * (allowed.length + given.length) ≤ 10 * n ↔
      3 * ((allowed.length : ℚ) + given.length) ≤ 10 * n := by exact_mod_cast Iff.rfl
  rw [isNear, decide_eq_true_iff, hcast, ratioOf, le_div_iff₀ hpos]
  constructor
  · intro hle
    linarith
  · intro hle
    linarith

theorem ratioOf_le {m : Nat} (hmn : m ≤ n) : ratioOf m allowed given ≤ ratioOf n allowed given := by
  have hcast : (m : ℚ) ≤ n := by exact_mod_cast hmn
  exact div_le_div_of_nonneg_right (by linarith) (by exact_mod_cast Nat.zero_le _)

/-- Nothing is like the text without characters. -/
theorem length_pos_of_near (h : 3 / 5 ≤ likeness allowed given) : 0 < given.length := by
  refine Nat.pos_of_ne_zero fun hzero => ?_
  have hle := (matchingSize_le_length allowed.toList given.toList).2
  rw [String.length_toList, hzero, Nat.le_zero] at hle
  rw [likeness, hle, ratioOf] at h
  norm_num at h

/-- Comparing crosswise compares the ranks of keys. -/
theorem lessAlike_iff {k k' : String} (h : 0 < given.length) :
    lessAlike (matchingSize k.toList given.toList) (k.length + given.length) k
      (matchingSize k'.toList given.toList) (k'.length + given.length) k' = true ↔
        rank given k < rank given k' := by
  have hpos (k : String) : (0 : ℚ) < k.length + given.length := by
    exact_mod_cast Nat.add_pos_right k.length h
  simp only [lessAlike, Bool.or_eq_true, Bool.and_eq_true, decide_eq_true_iff, rank,
    Prod.Lex.toLex_lt_toLex, likeness, ratioOf, div_lt_div_iff₀ (hpos k) (hpos k'),
    div_eq_div_iff (hpos k).ne' (hpos k').ne']
  generalize matchingSize k.toList given.toList = m
  generalize matchingSize k'.toList given.toList = m'
  refine or_congr ?_ (and_congr_left fun _ => ?_)
  · rw [mul_assoc, mul_assoc, mul_lt_mul_iff_of_pos_left two_pos]
    exact_mod_cast Iff.rfl
  · rw [mul_assoc, mul_assoc, mul_right_inj' two_ne_zero]
    exact_mod_cast Iff.rfl

/-- A key is like itself, and no other key is as like to it. -/
theorem likeness_self (h : given ≠ "") : likeness given given = 1 := by
  have hlength : (given.length : ℚ) ≠ 0 := by
    exact_mod_cast fun hzero => h (String.length_eq_zero_iff.1 hzero)
  rw [likeness, ratioOf, matchingSize_self, String.length_toList, ← two_mul]
  exact div_self (mul_ne_zero two_ne_zero hlength)

/-- Only a text itself is as like it as can be. -/
theorem likeness_lt_one (h : allowed ≠ given) : likeness allowed given < 1 := by
  obtain ⟨hallowed, hgiven⟩ := matchingSize_le_length allowed.toList given.toList
  have hboth : ¬ (matchingSize allowed.toList given.toList = allowed.toList.length ∧
      matchingSize allowed.toList given.toList = given.toList.length) :=
    fun ⟨ha, hg⟩ => h (String.toList_inj.1 (eq_of_matchingSize ha hg))
  rw [String.length_toList] at hallowed hgiven hboth
  rw [String.length_toList] at hboth
  have hsum : 2 * matchingSize allowed.toList given.toList < allowed.length + given.length := by
    omega
  have hpos : (0 : ℚ) < allowed.length + given.length := by
    exact_mod_cast Nat.lt_of_le_of_lt (Nat.zero_le _) hsum
  rw [likeness, ratioOf, div_lt_one hpos]
  exact_mod_cast hsum

/-- What is near is not much longer. -/
theorem length_le_of_near (h : 3 / 5 ≤ likeness allowed given) :
    3 * given.length ≤ 7 * allowed.length := by
  have hpos := Nat.add_pos_right allowed.length (length_pos_of_near h)
  have hnear := of_decide_eq_true ((isNear_iff hpos).2 h)
  have hle := (matchingSize_le_length allowed.toList given.toList).1
  rw [String.length_toList] at hle
  omega

end Ratios

/-! ## The search -/

section Search

variable {allowed : List String} {given k : String}

/-- The search finds the near key of the greatest rank. -/
theorem nearestKey?_eq_argmax (h : ∀ k ∈ allowed, k ≠ "") :
    nearestKey? allowed given =
      (allowed.filter fun k => 3 / 5 ≤ likeness k given).argmax (rank given) := by
  rw [nearestKey?, List.argmax, List.foldl_filter]
  refine List.foldl_ext _ _ _ fun best k hk => ?_
  have hlength : 0 < k.length :=
    Nat.pos_of_ne_zero fun hzero => h k hk (String.length_eq_zero_iff.1 hzero)
  have hiff : _ ↔ 3 / 5 ≤ likeness k given := isNear_iff (Nat.add_pos_left hlength given.length)
  unfold betterMatch
  by_cases hnear : 3 / 5 ≤ likeness k given
  · simp only [hiff.2 hnear, if_true, decide_eq_true hnear, List.argAux]
    cases best with
    | none => rfl
    | some b => exact if_congr (lessAlike_iff (length_pos_of_near hnear)) rfl rfl
  · rw [if_neg fun his => hnear (hiff.1 his),
      if_neg fun hdecide => hnear (of_decide_eq_true hdecide)]

/-- The key that is found is near and the greatest: no near key is more like the given one, and none
that is as like comes behind it. -/
theorem nearestKey?_eq_some_iff (h : ∀ k ∈ allowed, k ≠ "") :
    nearestKey? allowed given = some k ↔ k ∈ allowed ∧ 3 / 5 ≤ likeness k given ∧
      ∀ k' ∈ allowed, likeness k' given < likeness k given ∨
        likeness k' given = likeness k given ∧ k' ≤ k := by
  simp only [nearestKey?_eq_argmax h, List.argmax_eq_some_iff, List.mem_filter, decide_eq_true_iff,
    rank, Prod.Lex.toLex_le_toLex]
  constructor
  · rintro ⟨⟨hmem, hnear⟩, hgreatest, -⟩
    refine ⟨hmem, hnear, fun k' hk' => ?_⟩
    rcases lt_or_ge (likeness k' given) (3 / 5) with hfar | hnear'
    · exact .inl (hfar.trans_le hnear)
    · exact hgreatest k' ⟨hk', hnear'⟩
  · rintro ⟨hmem, hnear, hgreatest⟩
    refine ⟨⟨hmem, hnear⟩, fun k' hk' => hgreatest k' hk'.1, fun k' hk' hle => ?_⟩
    -- a key of the same rank is the key itself
    have heq : k = k' := by
      rcases hgreatest k' hk'.1 with hlt | ⟨heq, hle'⟩
      · rcases hle with hlt' | ⟨heq, -⟩
        · exact absurd hlt (lt_asymm hlt')
        · exact absurd heq hlt.ne'
      · rcases hle with hlt | ⟨-, hle⟩
        · exact absurd heq hlt.ne'
        · exact le_antisymm hle hle'
    rw [heq]

theorem nearestKey?_eq_none_iff (h : ∀ k ∈ allowed, k ≠ "") :
    nearestKey? allowed given = none ↔ ∀ k ∈ allowed, likeness k given < 3 / 5 := by
  rw [nearestKey?_eq_argmax h, List.argmax_eq_none, List.filter_eq_nil_iff]
  simp only [decide_eq_true_iff, not_le]

/-- An allowed key is the nearest to itself. -/
theorem nearestKey?_self (h : ∀ k ∈ allowed, k ≠ "") (hk : k ∈ allowed) :
    nearestKey? allowed k = some k := by
  have hself := likeness_self (h k hk)
  refine (nearestKey?_eq_some_iff h).2 ⟨hk, by rw [hself]; norm_num, fun k' _ => ?_⟩
  rcases eq_or_ne k' k with rfl | hne
  · exact .inr ⟨rfl, le_refl _⟩
  · exact .inl (by rw [hself]; exact likeness_lt_one hne)

/-- Keys that are not near may be left out of the search. -/
theorem nearestKey?_filter {p : String → Bool} (h : ∀ k ∈ allowed, k ≠ "")
    (hp : ∀ k ∈ allowed, 3 / 5 ≤ likeness k given → p k = true) :
    nearestKey? (allowed.filter p) given = nearestKey? allowed given := by
  have hkept : ∀ k ∈ allowed.filter p, k ≠ "" := fun k hk => h k (List.mem_of_mem_filter hk)
  rw [nearestKey?_eq_argmax hkept, nearestKey?_eq_argmax h, List.filter_filter]
  refine congrArg _ (List.filter_congr fun k hk => ?_)
  by_cases hnear : 3 / 5 ≤ likeness k given
  · rw [hp k hk hnear, Bool.and_true]
  · rw [decide_eq_false hnear, Bool.false_and]

end Search

/-! ## Hints -/

section Hints

variable {given k : String}

theorem configKeys_ne_empty : ∀ k ∈ configKeys, k ≠ "" := by decide

theorem keyHint_eq_iff :
    keyHint given = "did you mean " ++ Diagnostic.ticked k ++ "?" ↔
      nearestKey? configKeys given = some k := by
  unfold keyHint
  cases nearestKey? configKeys given with
  | none => simp [@eq_comm _ ""]
  | some k' => simp [Diagnostic.ticked, String.append_right_inj, String.append_left_inj]

theorem keyHint_eq_empty_iff : keyHint given = "" ↔ nearestKey? configKeys given = none := by
  unfold keyHint
  cases nearestKey? configKeys given <;> simp

/-- **A suggestion is the best match.** For every key, the matching size with another key is the
total length of the common runs that the search for the longest ones finds; it exceeds neither the
shorter length nor the number of characters that both keys share. The hint names an allowed key
exactly when that key is near, none is more like the given one, and none that is as like comes
behind it; it is empty exactly when no allowed key is near. The bounds rule out no near key, so that
the search may leave out what they rule out. No key of more than sixteen characters has a hint, and
an allowed key has itself. -/
theorem suggestion_is_best (key : String) :
    (∀ (k : String) (m : Nat), Matching k.toList key.toList m ↔
      m = matchingSize k.toList key.toList) ∧
    (∀ k : String, matchingSize k.toList key.toList ≤ min k.length key.length ∧
      matchingSize k.toList key.toList ≤ (k.toList.bagInter key.toList).length) ∧
    (∀ k, keyHint key = "did you mean " ++ Diagnostic.ticked k ++ "?" ↔
      k ∈ configKeys ∧ 3 / 5 ≤ likeness k key ∧ ∀ k' ∈ configKeys,
        likeness k' key < likeness k key ∨ likeness k' key = likeness k key ∧ k' ≤ k) ∧
    (keyHint key = "" ↔ ∀ k ∈ configKeys, likeness k key < 3 / 5) ∧
    (∀ k ∈ configKeys, 3 / 5 ≤ likeness k key →
      3 / 5 ≤ ratioOf (min k.length key.length) k key ∧
        3 / 5 ≤ ratioOf (k.toList.bagInter key.toList).length k key) ∧
    (nearestKey? (configKeys.filter fun k => 3 / 5 ≤ ratioOf (min k.length key.length) k key ∧
      3 / 5 ≤ ratioOf (k.toList.bagInter key.toList).length k key) key =
        nearestKey? configKeys key) ∧
    (16 < key.length → keyHint key = "") ∧
    (key ∈ configKeys → keyHint key = "did you mean " ++ Diagnostic.ticked key ++ "?") := by
  have hmin (k : String) : matchingSize k.toList key.toList ≤ min k.length key.length :=
    Nat.le_min.2 (matchingSize_le_length k.toList key.toList)
  have hshared (k : String) := matchingSize_le_bagInter k.toList key.toList
  have hbounds : ∀ k ∈ configKeys, 3 / 5 ≤ likeness k key →
      3 / 5 ≤ ratioOf (min k.length key.length) k key ∧
        3 / 5 ≤ ratioOf (k.toList.bagInter key.toList).length k key :=
    fun k _ hnear => ⟨hnear.trans (ratioOf_le (hmin k)), hnear.trans (ratioOf_le (hshared k))⟩
  have hempty : keyHint key = "" ↔ ∀ k ∈ configKeys, likeness k key < 3 / 5 :=
    keyHint_eq_empty_iff.trans (nearestKey?_eq_none_iff configKeys_ne_empty)
  refine ⟨fun k m => matching_iff, fun k => ⟨hmin k, hshared k⟩, fun k => ?_, hempty, hbounds, ?_,
    fun hlong => hempty.2 fun k hk => ?_, fun hmem => ?_⟩
  · exact keyHint_eq_iff.trans (nearestKey?_eq_some_iff configKeys_ne_empty)
  · exact nearestKey?_filter configKeys_ne_empty
      fun k hk hnear => decide_eq_true (hbounds k hk hnear)
  · -- no allowed key has more than seven characters
    have hseven : ∀ k ∈ configKeys, k.length ≤ 7 := by decide
    refine lt_of_not_ge fun hnear => ?_
    have hlength := length_le_of_near hnear
    have hshort := hseven k hk
    omega
  · exact keyHint_eq_iff.2 (nearestKey?_self configKeys_ne_empty hmem)

/-- A key that lacks a letter of an allowed one, a key that is too long, and an allowed key. -/
theorem suggestion_is_best_of_rule :
    (3 / 5 ≤ likeness "rules" "rule" ∧ 3 / 5 ≤ ratioOf 4 "rules" "rule") ∧
      (16 < "rulesrulesrulesrules".length ∧ keyHint "rulesrulesrulesrules" = "") ∧
      "rules" ∈ configKeys ∧
        keyHint "rules" = "did you mean " ++ Diagnostic.ticked "rules" ++ "?" := by
  have hsize : matchingSize "rules".toList "rule".toList = 4 := by decide +kernel
  have hnear : 3 / 5 ≤ likeness "rules" "rule" := by
    have hlengths : "rules".length = 5 ∧ "rule".length = 4 := by decide
    rw [likeness, ratioOf, hsize, hlengths.1, hlengths.2]
    norm_num
  have hmem : "rules" ∈ configKeys := by decide
  have hlong : 16 < "rulesrulesrulesrules".length := by decide
  obtain ⟨-, -, -, -, hbounds, -⟩ := suggestion_is_best "rule"
  obtain ⟨-, -, -, -, -, -, hnone, -⟩ := suggestion_is_best "rulesrulesrulesrules"
  obtain ⟨-, -, -, -, -, -, -, hself⟩ := suggestion_is_best "rules"
  exact ⟨⟨hnear, (hbounds "rules" hmem hnear).1⟩, ⟨hlong, hnone hlong⟩, hmem, hself hmem⟩

end Hints

end Verdict
