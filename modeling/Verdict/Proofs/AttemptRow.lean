import Mathlib.Data.List.Perm.Basic
import Verdict.Proofs.Attempt
/-!
# Attempts in a row

One attempt for each item of a list, one after the other: the row has answers if every attempt has
one, and otherwise it ends as the first attempt that fails. So the order of the items matters for
which failure there is and for nothing else, and items that do not fail can be left out.
-/

namespace Verdict

variable {ε α β : Type} {attempt : α → Except ε β} {items : List α}

/-- A row has the answers of its items, each in its place. -/
theorem mapM_eq_ok_iff {answers : List β} :
    items.mapM attempt = .ok answers ↔
      List.Forall₂ (fun item answer => attempt item = .ok answer) items answers := by
  induction items generalizing answers with
  | nil =>
    rw [List.mapM_nil, List.forall₂_nil_left_iff]
    exact ⟨fun h => (Except.ok.inj h).symm, fun h => by rw [h]; rfl⟩
  | cons item items ih =>
    rw [List.mapM_cons, bind_eq_ok_iff, List.forall₂_cons_left_iff]
    constructor
    · rintro ⟨answer, hanswer, h⟩
      obtain ⟨rest, hrest, h⟩ := bind_eq_ok_iff.1 h
      exact ⟨answer, rest, hanswer, ih.1 hrest, (Except.ok.inj h).symm⟩
    · rintro ⟨answer, rest, hanswer, hrest, rfl⟩
      exact ⟨answer, hanswer, bind_eq_ok_iff.2 ⟨rest, ih.2 hrest, rfl⟩⟩

/-- A row fails as the first of its items that fails. -/
theorem mapM_eq_error_iff {e : ε} :
    items.mapM attempt = .error e ↔
      ∃ before item after, items = before ++ item :: after ∧
        (∀ earlier ∈ before, ∃ answer, attempt earlier = .ok answer) ∧
        attempt item = .error e := by
  -- on the items: the first one fails, or one behind it does
  induction items with
  | nil =>
    constructor
    · nofun
    · rintro ⟨before, item, after, hitems, -⟩
      simp at hitems
  | cons first items ih =>
    rw [List.mapM_cons, bind_eq_error_iff]
    constructor
    · rintro (hfirst | ⟨answer, hanswer, h⟩)
      · exact ⟨[], first, items, rfl, nofun, hfirst⟩
      · rcases bind_eq_error_iff.1 h with h | ⟨_, _, h⟩
        · obtain ⟨before, item, after, rfl, hbefore, hitem⟩ := ih.1 h
          exact ⟨first :: before, item, after, rfl,
            List.forall_mem_cons.2 ⟨⟨answer, hanswer⟩, hbefore⟩, hitem⟩
        · cases h
    · rintro ⟨before, item, after, hitems, hbefore, hitem⟩
      cases before with
      | nil =>
        obtain ⟨rfl, -⟩ := List.cons.inj hitems
        exact .inl hitem
      | cons earlier before =>
        obtain ⟨rfl, rfl⟩ := List.cons.inj hitems
        obtain ⟨⟨answer, hanswer⟩, hbefore⟩ := List.forall_mem_cons.1 hbefore
        exact .inr ⟨answer, hanswer,
          bind_eq_error_iff.2 (.inl (ih.2 ⟨before, item, after, rfl, hbefore, hitem⟩))⟩

/-- A row fails exactly if one of its items fails. -/
theorem mapM_isError_iff :
    (∃ e, items.mapM attempt = .error e) ↔ ∃ item ∈ items, ∃ e, attempt item = .error e := by
  induction items with
  | nil => simp [pure, Except.pure]
  | cons first items ih =>
    rw [List.exists_mem_cons_iff, ← ih, List.mapM_cons]
    cases hfirst : attempt first with
    | error e => simp [bind, Except.bind]
    | ok answer => cases items.mapM attempt <;> simp [bind, Except.bind, pure, Except.pure]

/-- A row has answers exactly if every item has one. -/
theorem mapM_isOk_iff :
    (∃ answers, items.mapM attempt = .ok answers) ↔
      ∀ item ∈ items, ∃ answer, attempt item = .ok answer := by
  have hiff {γ : Type} (x : Except ε γ) : (∃ a, x = .ok a) ↔ ¬ ∃ e, x = .error e := by
    cases x <;> simp
  simp only [hiff, mapM_isError_iff, not_exists, not_and]

/-- The answers come in the order of the items. -/
theorem exists_mapM_of_perm {items' : List α} (h : items.Perm items') {answers : List β}
    (hanswers : items.mapM attempt = .ok answers) :
    ∃ answers', items'.mapM attempt = .ok answers' ∧ answers.Perm answers' := by
  obtain ⟨answers', hanswers', hperm⟩ :=
    List.perm_comp_forall₂ h.symm (mapM_eq_ok_iff.1 hanswers)
  exact ⟨answers', mapM_eq_ok_iff.2 hanswers', hperm.symm⟩

/-- Without items that do not fail, a row ends as with them, without their answers. -/
theorem mapM_filter {keep : α → Bool} {keepAnswer : β → Bool}
    (hkeep : ∀ item answer, attempt item = .ok answer → keepAnswer answer = keep item)
    (hleft : ∀ item ∈ items, keep item = false → ∃ answer, attempt item = .ok answer) :
    (items.filter keep).mapM attempt = (items.mapM attempt).map (List.filter keepAnswer) := by
  induction items with
  | nil => rfl
  | cons first items ih =>
    obtain ⟨hfirst, hitems⟩ := List.forall_mem_cons.1 hleft
    rw [List.filter_cons, List.mapM_cons]
    split
    · next hkept =>
      rw [List.mapM_cons, ih hitems]
      -- the row that is kept fails where the whole row does
      cases hanswer : attempt first with
      | error e => rfl
      | ok answer =>
        have hkept' : keepAnswer answer = true := (hkeep first answer hanswer).trans hkept
        cases items.mapM attempt with
        | error e => rfl
        | ok answers => exact congrArg Except.ok (List.filter_cons_of_pos hkept').symm
    · next hdropped =>
      rw [Bool.not_eq_true] at hdropped
      obtain ⟨answer, hanswer⟩ := hfirst hdropped
      have hdropped' : ¬ keepAnswer answer = true := by
        rw [hkeep first answer hanswer, hdropped]
        exact Bool.false_ne_true
      rw [ih hitems, hanswer]
      cases items.mapM attempt with
      | error e => rfl
      | ok answers => exact congrArg Except.ok (List.filter_cons_of_neg hdropped').symm

end Verdict
