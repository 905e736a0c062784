import Verdict.Proofs.Rule.Occurrence
/-!
# Where a rule is split

A combinator stands at a place of a text when its mark is there and at the next place too. A rule is
split at the first place at which one stands (`find?_eq_some_iff`), and two places may overlap: in
`a|&&b` the first is that of `&&`, and in `a&&&b` the first pair of marks joins and the third mark
belongs to the right operand.

So two texts that are joined by a combinator come apart at the joint only if nothing stands further
to the left. That is a matter of the left text alone: none may stand in it, and it may not end in
the mark, which would make one together with the first mark of the joint
(`forall_not_standsAt_iff`).
-/

namespace Verdict

namespace Combinator

variable {op : Combinator} {cs left right : List Char} {a b : Char} {i : Nat}

/-! ## Places -/

/-- Whether a combinator stands at a place of a row of characters. -/
def StandsAt (op : Combinator) (cs : List Char) (i : Nat) : Prop :=
  cs[i]? = some op.mark ∧ cs[i + 1]? = some op.mark

theorem standsAt_zero_iff : op.StandsAt (a :: b :: cs) 0 ↔ ofPair? a b = some op := by
  rw [ofPair?_eq_some_iff, StandsAt, List.getElem?_cons_zero, List.getElem?_cons_succ,
    List.getElem?_cons_zero, Option.some.injEq, Option.some.injEq]

theorem standsAt_succ_iff : op.StandsAt (a :: cs) (i + 1) ↔ op.StandsAt cs i := Iff.rfl

/-- A combinator stands between two texts that it joins. -/
theorem standsAt_append (op : Combinator) (left right : List Char) :
    op.StandsAt (left ++ op.mark :: op.mark :: right) left.length := by
  constructor
  · rw [List.getElem?_append_right (Nat.le_refl _), Nat.sub_self, List.getElem?_cons_zero]
  · rw [List.getElem?_append_right (Nat.le_succ _), Nat.succ_sub (Nat.le_refl _),
      Nat.sub_self, List.getElem?_cons_succ, List.getElem?_cons_zero]

/-- A combinator occurs among characters exactly when it stands at one of their places. -/
theorem occurs_iff_exists_standsAt : Occurs cs ↔ ∃ i, ∃ op : Combinator, op.StandsAt cs i := by
  rw [exists_comm]
  refine exists_congr fun op => ⟨?_, ?_⟩
  · rintro ⟨front, back, rfl⟩
    refine ⟨front.length, ?_⟩
    rw [run, List.append_assoc]
    exact op.standsAt_append front back
  · rintro ⟨i, hfirst, hsecond⟩
    obtain ⟨hi, hfirst⟩ := List.getElem?_eq_some_iff.1 hfirst
    obtain ⟨hi', hsecond⟩ := List.getElem?_eq_some_iff.1 hsecond
    refine ⟨cs.take i, cs.drop (i + 2), ?_⟩
    calc cs.take i ++ op.run ++ cs.drop (i + 2)
        = cs.take i ++ cs[i] :: cs[i + 1] :: cs.drop (i + 2) := by
          rw [hfirst, hsecond, run, List.append_assoc]
          rfl
      _ = cs := by
          rw [List.getElem_cons_drop, List.getElem_cons_drop, List.take_append_drop]

/-! ## The first place -/

/-- The split is made at the first place at which a combinator stands. -/
theorem splitChars?_first :
    (splitChars? cs).map (fun parts => (parts.1.length, parts.2.1)) = some (i, op) ↔
      op.StandsAt cs i ∧ ∀ j < i, ∀ op' : Combinator, ¬ op'.StandsAt cs j := by
  -- the induction follows the reading: a place of the rest is one place further on in the whole
  induction cs generalizing i with
  | nil => simp [splitChars?, StandsAt]
  | cons a cs ih =>
    cases cs with
    | nil => simp [splitChars?, StandsAt]
    | cons b rest =>
      rw [splitChars?]
      cases hpair : ofPair? a b with
      | some first =>
        have hstands : first.StandsAt (a :: b :: rest) 0 := standsAt_zero_iff.2 hpair
        cases i with
        | zero => simp [standsAt_zero_iff, hpair, eq_comm]
        | succ i =>
          -- the split is made in front of that place
          refine iff_of_false ?_ fun h => h.2 0 i.succ_pos first hstands
          simp
      | none =>
        have hnot : ∀ op' : Combinator, ¬ op'.StandsAt (a :: b :: rest) 0 := by
          intro op'
          rw [standsAt_zero_iff, hpair]
          exact (Option.some_ne_none op').symm
        cases i with
        | zero => simp [hnot]
        | succ i =>
          have hplaces : (∀ j < i + 1, ∀ op' : Combinator, ¬ op'.StandsAt (a :: b :: rest) j) ↔
              ∀ j < i, ∀ op' : Combinator, ¬ op'.StandsAt (b :: rest) j := by
            refine ⟨fun h j hj => h (j + 1) (Nat.succ_lt_succ hj), fun h j hj => ?_⟩
            cases j with
            | zero => exact hnot
            | succ j => exact h j (Nat.lt_of_succ_lt_succ hj)
          rw [standsAt_succ_iff, hplaces, ← ih]
          simp [Option.map_map, Function.comp_def]

theorem find?_eq_some_iff {text : String} :
    find? text = some (i, op) ↔
      op.StandsAt text.toList i ∧ ∀ j < i, ∀ op' : Combinator, ¬ op'.StandsAt text.toList j :=
  splitChars?_first

theorem find?_eq_none_iff {text : String} :
    find? text = none ↔ ∀ i, ∀ op : Combinator, ¬ op.StandsAt text.toList i := by
  rw [find?, Option.map_eq_none_iff, ← Option.not_isSome_iff_eq_none, isSome_splitChars?_iff,
    occurs_iff_exists_standsAt]
  simp only [not_exists]

/-- No combinator stands in front of the joint of two texts exactly when none occurs in the left
text and that text does not end in the mark. -/
theorem forall_not_standsAt_iff :
    (∀ j < left.length, ∀ op' : Combinator,
      ¬ op'.StandsAt (left ++ op.mark :: op.mark :: right) j) ↔
      ¬ Occurs left ∧ left.getLast? ≠ some op.mark := by
  constructor
  · intro h
    refine ⟨?_, fun hend => ?_⟩
    · rw [occurs_iff_exists_standsAt]
      rintro ⟨j, op', hfirst, hsecond⟩
      have hj := (List.getElem?_eq_some_iff.1 hfirst).1
      have hj' := (List.getElem?_eq_some_iff.1 hsecond).1
      refine h j hj op' ⟨?_, ?_⟩
      · rw [List.getElem?_append_left hj, hfirst]
      · rw [List.getElem?_append_left hj', hsecond]
    · -- the last mark of the left text makes a combinator with the first one of the joint
      obtain ⟨front, rfl⟩ := List.getLast?_eq_some_iff.1 hend
      refine h front.length (by simp) op ?_
      rw [List.append_assoc]
      exact op.standsAt_append front (op.mark :: right)
  · rintro ⟨hleft, hend⟩ j hj op' ⟨hfirst, hsecond⟩
    rw [List.getElem?_append_left hj] at hfirst
    rcases Nat.lt_or_ge (j + 1) left.length with hj' | hj'
    · rw [List.getElem?_append_left hj'] at hsecond
      exact hleft (occurs_iff_exists_standsAt.2 ⟨j, op', hfirst, hsecond⟩)
    · -- the second mark is the first one of the joint, and so the marks are those of one combinator
      have hlast : j + 1 = left.length := Nat.le_antisymm hj hj'
      rw [hlast, List.getElem?_append_right (Nat.le_refl _), Nat.sub_self,
        List.getElem?_cons_zero] at hsecond
      refine hend ?_
      rw [List.getLast?_eq_getElem?, ← hlast, Nat.add_sub_cancel, hfirst, hsecond]

end Combinator

open Combinator

/-! ## Expressions -/

namespace Expression

variable {text left right : String} {op : Combinator}

theorem split_eq_single_iff : split text = .single text ↔ find? text = none := by
  unfold split find?
  cases splitChars? text.toList <;> simp

/-- Between joined texts the joint is found exactly when no combinator occurs in the left one and
it does not end in the mark. -/
theorem find?_joined_iff :
    find? (left ++ op.token ++ right) = some (left.length, op) ↔
      ¬ Occurs left.toList ∧ left.toList.getLast? ≠ some op.mark := by
  have hchars : (left ++ op.token ++ right).toList =
      left.toList ++ op.mark :: op.mark :: right.toList := by
    simp [token]
  rw [find?_eq_some_iff, hchars, ← String.length_toList, forall_not_standsAt_iff]
  exact and_iff_right (op.standsAt_append left.toList right.toList)

/-- A rule comes apart into what stands on both sides of the combinator that is found. -/
theorem split_eq_compound_iff :
    split text = .compound left op right ↔
      find? text = some (left.length, op) ∧ left ++ op.token ++ right = text := by
  constructor
  · intro h
    have hrender : (split text).render = text := render_split text
    rw [h] at hrender
    refine ⟨?_, hrender⟩
    unfold split at h
    unfold find?
    cases hsplit : splitChars? text.toList with
    | none => simp [hsplit] at h
    | some parts =>
      simp only [hsplit, compound.injEq] at h
      obtain ⟨rfl, rfl, -⟩ := h
      simp
  · rintro ⟨hfind, rfl⟩
    rw [find?_joined_iff] at hfind
    exact split_of_joined right hfind.1 hfind.2

/-- Joined texts come apart where they were joined exactly when no combinator occurs in the left
one and it does not end in the mark of the one that joins. -/
theorem split_joined_iff :
    split (left ++ op.token ++ right) = .compound left op right ↔
      ¬ Occurs left.toList ∧ left.toList.getLast? ≠ some op.mark := by
  rw [split_eq_compound_iff, find?_joined_iff, and_iff_left rfl]

/-- What is left of the combinator neither holds one nor ends in its mark. -/
theorem left_of_split (h : split text = .compound left op right) :
    ¬ Occurs left.toList ∧ left.toList.getLast? ≠ some op.mark := by
  have hrender : left ++ op.token ++ right = text := (split_eq_compound_iff.1 h).2
  rw [← hrender] at h
  exact split_joined_iff.1 h

/-- **Rules are split at the first combinator.** None is found exactly when none stands anywhere in
the text, and the rule is then one clause; the one that is found is the first that stands anywhere.
A rule that comes apart does so there, and nothing of its text is lost. And two texts with a
combinator between them come apart into the two exactly when the left one holds no combinator and
does not end in the mark of the one between. -/
theorem split_at_first :
    (∀ text, (find? text = none ↔ ∀ i, ∀ op : Combinator, ¬ op.StandsAt text.toList i) ∧
      (split text = .single text ↔ find? text = none) ∧
      (∀ i op, find? text = some (i, op) ↔
        op.StandsAt text.toList i ∧ ∀ j < i, ∀ op' : Combinator, ¬ op'.StandsAt text.toList j) ∧
      ∀ left op right, split text = .compound left op right ↔
        find? text = some (left.length, op) ∧ left ++ op.token ++ right = text) ∧
    ∀ left right op, split (left ++ op.token ++ right) = .compound left op right ↔
      ¬ Occurs left.toList ∧ left.toList.getLast? ≠ some op.mark :=
  ⟨fun _ => ⟨find?_eq_none_iff, split_eq_single_iff, fun _ _ => find?_eq_some_iff,
    fun _ _ _ => split_eq_compound_iff⟩, fun _ _ _ => split_joined_iff⟩

/-- Of three marks the first two join. -/
example : split "a&&&b" = .compound "a" .and "&b" := by decide

end Expression

end Verdict
