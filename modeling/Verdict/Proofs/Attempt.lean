import Verdict.Fault
/-!
# How attempts end

An attempt is an answer or a failure, and an operation of several attempts ends as the first of them
that fails, or as the last one. The laws here say so in both directions, so that what is known of
the end of an operation can be taken back to its attempts one after the other.
-/

namespace Verdict

variable {ε δ α β : Type}

instance decidableEqError [DecidableEq ε] (x : Except ε α) (e : ε) : Decidable (x = .error e) :=
  match x with
  | .ok _ => .isFalse nofun
  | .error e' => decidable_of_iff (e' = e) ⟨congrArg _, fun h => by cases h; rfl⟩

instance decidableEqOk [DecidableEq α] (x : Except ε α) (a : α) : Decidable (x = .ok a) :=
  match x with
  | .ok a' => decidable_of_iff (a' = a) ⟨congrArg _, fun h => by cases h; rfl⟩
  | .error _ => .isFalse nofun

/-! ## One attempt after another -/

theorem bind_eq_ok_iff {x : Except ε α} {next : α → Except ε β} {b : β} :
    x >>= next = .ok b ↔ ∃ a, x = .ok a ∧ next a = .ok b := by
  cases x with
  | ok a => exact ⟨fun h => ⟨a, rfl, h⟩, fun ⟨a', ha, h⟩ => by cases ha; exact h⟩
  | error e => exact ⟨fun h => (nomatch h), fun ⟨_, h, _⟩ => (nomatch h)⟩

/-- A step in front of another fails exactly if it fails itself, or is in order and the other fails.
-/
theorem bind_eq_error_iff {x : Except ε α} {next : α → Except ε β} {e : ε} :
    x >>= next = .error e ↔ x = .error e ∨ ∃ a, x = .ok a ∧ next a = .error e := by
  cases x with
  | ok a =>
    refine ⟨fun h => .inr ⟨a, rfl, h⟩, fun h => ?_⟩
    rcases h with h | ⟨a', ha, h⟩
    · cases h
    · cases ha
      exact h
  | error e' =>
    refine ⟨fun h => .inl ?_, fun h => ?_⟩
    · cases h
      rfl
    · rcases h with h | ⟨_, h, _⟩
      · cases h
        rfl
      · cases h

theorem map_eq_ok_iff {x : Except ε α} {f : α → β} {b : β} :
    x.map f = .ok b ↔ ∃ a, x = .ok a ∧ f a = b := by
  cases x <;> simp [Except.map]

theorem map_eq_error_iff {x : Except ε α} {f : α → β} {e : ε} :
    x.map f = .error e ↔ x = .error e := by
  cases x <;> simp [Except.map]

theorem mapError_ok (f : ε → δ) (a : α) : (Except.ok a).mapError f = .ok a := rfl

/-- Changing the error of an attempt leaves its answer. -/
theorem mapError_eq_ok_iff {x : Except ε α} {f : ε → δ} {a : α} :
    x.mapError f = .ok a ↔ x = .ok a := by
  cases x with
  | ok b =>
    constructor
    · intro h
      cases h
      rfl
    · intro h
      cases h
      rfl
  | error e => exact ⟨fun h => (nomatch h), fun h => (nomatch h)⟩

/-- An attempt with its error changed fails in the changed error. -/
theorem mapError_eq_error_iff {x : Except ε α} {f : ε → δ} {d : δ} :
    x.mapError f = .error d ↔ ∃ e, x = .error e ∧ f e = d := by
  cases x with
  | ok b => exact ⟨fun h => (nomatch h), fun ⟨_, h, _⟩ => (nomatch h)⟩
  | error e =>
    constructor
    · intro h
      cases h
      exact ⟨e, rfl, rfl⟩
    · rintro ⟨_, he, rfl⟩
      cases he
      rfl

/-- A failure with its errors changed is a fault only if it was one. -/
theorem Failure.map_eq_fault_iff {x : Failure ε} {f : ε → δ} {g : Fault} :
    x.map f = .fault g ↔ x = .fault g := by
  cases x <;> simp

theorem Failure.map_eq_declared_iff {x : Failure ε} {f : ε → δ} {d : δ} :
    x.map f = .declared d ↔ ∃ e, x = .declared e ∧ f e = d := by
  cases x <;> simp

/-! ## Attempts with one way to fail -/

/-- The attempt can fail in the way `e₀` alone, and fails exactly when `P` holds. -/
def FailsOnly (e₀ : ε) (P : Prop) (x : Except ε α) : Prop := ∀ e, x = .error e ↔ e = e₀ ∧ P

namespace FailsOnly

variable {e₀ : ε} {P Q : Prop} {x : Except ε α}

theorem congr (h : FailsOnly e₀ P x) (hPQ : P ↔ Q) : FailsOnly e₀ Q x := by
  intro e
  rw [h e, hPQ]

/-- An answer is no failure. -/
theorem ok (hP : ¬ P) (a : α) : FailsOnly e₀ P (.ok a : Except ε α) := by
  intro e
  simp only [reduceCtorEq, hP, and_false]

/-- Two attempts fail when the first one does or the second one does; that the second one is not
made after a failure of the first makes no difference, since both fail in the same way. -/
theorem bind {next : α → Except ε β} (hx : FailsOnly e₀ P x)
    (hnext : ∀ a, FailsOnly e₀ Q (next a)) : FailsOnly e₀ (P ∨ Q) (x >>= next) := by
  intro e
  rw [bind_eq_error_iff, hx e]
  constructor
  · rintro (⟨he, hP⟩ | ⟨a, -, h⟩)
    · exact ⟨he, .inl hP⟩
    · exact ⟨((hnext a e).1 h).1, .inr ((hnext a e).1 h).2⟩
  · rintro ⟨he, hP | hQ⟩
    · exact .inl ⟨he, hP⟩
    · cases hres : x with
      | ok a => exact .inr ⟨a, rfl, (hnext a e).2 ⟨he, hQ⟩⟩
      | error e' => exact .inl ⟨he, ((hx e').1 hres).2⟩

/-- What is done with an answer without failing does not matter. -/
theorem bind_ok {next : α → Except ε β} (hx : FailsOnly e₀ P x)
    (hnext : ∀ a, ∃ b, next a = .ok b) : FailsOnly e₀ P (x >>= next) := by
  intro e
  rw [bind_eq_error_iff, hx e]
  refine or_iff_left ?_
  rintro ⟨a, -, h⟩
  obtain ⟨b, hb⟩ := hnext a
  rw [hb] at h
  cases h

/-- What does not fail has an answer. -/
theorem isOk_iff (hx : FailsOnly e₀ P x) : (∃ a, x = .ok a) ↔ ¬ P := by
  cases hres : x with
  | ok a =>
    refine ⟨fun _ hP => ?_, fun _ => ⟨a, rfl⟩⟩
    have h := (hx e₀).2 ⟨rfl, hP⟩
    rw [hres] at h
    cases h
  | error e => exact ⟨fun ⟨_, h⟩ => (nomatch h), fun hP => absurd ((hx e).1 hres).2 hP⟩

theorem map {f : α → β} (hx : FailsOnly e₀ P x) : FailsOnly e₀ P (x.map f) := by
  intro e
  rw [map_eq_error_iff, hx e]

end FailsOnly

/-! ## Attempts with failures of one kind -/

/-- Every way in which the attempt can fail is one of which `P` holds. -/
def FailsIn (P : ε → Prop) (x : Except ε α) : Prop := ∀ e, x = .error e → P e

namespace FailsIn

variable {P : ε → Prop} {x : Except ε α}

theorem ok (a : α) : FailsIn P (.ok a : Except ε α) := nofun

theorem error {e : ε} (h : P e) : FailsIn P (.error e : Except ε α) := by
  intro e' he
  cases he
  exact h

theorem bind {next : α → Except ε β} (hx : FailsIn P x) (hnext : ∀ a, FailsIn P (next a)) :
    FailsIn P (x >>= next) := by
  intro e he
  rcases bind_eq_error_iff.1 he with he | ⟨a, -, he⟩
  · exact hx e he
  · exact hnext a e he

theorem map {f : α → β} (hx : FailsIn P x) : FailsIn P (x.map f) :=
  fun e he => hx e (map_eq_error_iff.1 he)

theorem ite {c : Prop} [Decidable c] {y : Except ε α} (hx : FailsIn P x) (hy : FailsIn P y) :
    FailsIn P (if c then x else y) := by
  split
  · exact hx
  · exact hy

theorem mapM {f : α → Except ε β} (hf : ∀ a, FailsIn P (f a)) (as : List α) :
    FailsIn P (as.mapM f) := by
  induction as with
  | nil => exact .ok _
  | cons a as ih =>
    rw [List.mapM_cons]
    exact (hf a).bind fun b => ih.bind fun bs => .ok _

end FailsIn

/-- Whether a failure is declared or a fault of which `P` holds. -/
def Failure.Within (P : Fault → Prop) : Failure ε → Prop
  | .declared _ => True
  | .fault f => P f

theorem FailsIn.orFault {P : Fault → Prop} {x : Except Fault α} (hx : FailsIn P x) :
    FailsIn (Failure.Within P) (orFault x : Except (Failure ε) α) := by
  cases x with
  | ok a => exact .ok a
  | error f => exact .error (hx f rfl)

/-! ## Attempts inside a wider operation -/

theorem orFault_eq_ok_iff {x : Except Fault α} {a : α} :
    (orFault x : Except (Failure ε) α) = .ok a ↔ x = .ok a := by
  cases x <;> simp [orFault]

theorem orFault_eq_fault_iff {x : Except Fault α} {f : Fault} :
    (orFault x : Except (Failure ε) α) = .error (.fault f) ↔ x = .error f := by
  cases x <;> simp [orFault]

/-- An attempt without errors of its own declares none. -/
theorem orFault_ne_declared {x : Except Fault α} {e : ε} :
    (orFault x : Except (Failure ε) α) ≠ .error (.declared e) := by
  cases x <;> simp [orFault]

theorem orDeclared_eq_ok_iff {x : Except ε α} {a : α} :
    (orDeclared x : Except (Failure ε) α) = .ok a ↔ x = .ok a := by
  cases x <;> simp [orDeclared]

theorem orDeclared_eq_declared_iff {x : Except ε α} {e : ε} :
    (orDeclared x : Except (Failure ε) α) = .error (.declared e) ↔ x = .error e := by
  cases x <;> simp [orDeclared]

/-- An attempt with declared errors alone meets no fault. -/
theorem orDeclared_ne_fault {x : Except ε α} {f : Fault} :
    (orDeclared x : Except (Failure ε) α) ≠ .error (.fault f) := by
  cases x <;> simp [orDeclared]

/-! ## Refusals -/

/-- The attempt declares an error only if `P` holds, and has an answer only if `P` does not hold. A
fault says nothing about `P`. -/
def RefusesIff (P : Prop) (x : Except (Failure ε) α) : Prop :=
  (∀ a, x = .ok a → ¬ P) ∧ ∀ e, x = .error (.declared e) → P

namespace RefusesIff

variable {P Q : Prop} {x : Except (Failure ε) α}

theorem congr (h : RefusesIff P x) (hPQ : P ↔ Q) : RefusesIff Q x := by
  rwa [RefusesIff, ← hPQ]

/-- An answer is no refusal. -/
theorem ok (hP : ¬ P) (a : α) : RefusesIff P (.ok a : Except (Failure ε) α) :=
  ⟨fun _ _ => hP, nofun⟩

theorem declared (hP : P) (e : ε) : RefusesIff P (.error (.declared e) : Except (Failure ε) α) :=
  ⟨nofun, fun _ _ => hP⟩

/-- An attempt without errors of its own refuses nothing. -/
theorem orFault (hP : ¬ P) (x : Except Fault α) :
    RefusesIff P (orFault x : Except (Failure ε) α) :=
  ⟨fun _ _ => hP, fun _ h => absurd h orFault_ne_declared⟩

theorem orDeclared {x : Except ε α} (hx : (∃ a, x = .ok a) ↔ ¬ P) :
    RefusesIff P (orDeclared x : Except (Failure ε) α) := by
  cases x with
  | ok a => exact .ok (hx.1 ⟨a, rfl⟩) a
  | error e =>
    refine .declared (Classical.byContradiction fun hP => ?_) e
    obtain ⟨a, ha⟩ := hx.2 hP
    cases ha

/-- Two attempts refuse when the first one does or the second one does. -/
theorem bind {next : α → Except (Failure ε) β} (hx : RefusesIff P x)
    (hnext : ∀ a, x = .ok a → RefusesIff Q (next a)) : RefusesIff (P ∨ Q) (x >>= next) := by
  constructor
  · intro b hb
    obtain ⟨a, ha, hb⟩ := bind_eq_ok_iff.1 hb
    exact not_or.2 ⟨hx.1 a ha, (hnext a ha).1 b hb⟩
  · intro e he
    rcases bind_eq_error_iff.1 he with he | ⟨a, ha, he⟩
    · exact .inl (hx.2 e he)
    · exact .inr ((hnext a ha).2 e he)

/-- What is done with an answer without failing does not matter. -/
theorem bind_ok {next : α → Except (Failure ε) β} (hx : RefusesIff P x)
    (hnext : ∀ a, ∃ b, next a = .ok b) : RefusesIff P (x >>= next) := by
  refine (hx.bind fun a _ => ?_).congr (or_iff_left id)
  obtain ⟨b, hb⟩ := hnext a
  rw [hb]
  exact .ok id b

/-- Short of a fault, an attempt refuses exactly when `P` holds. -/
theorem refuses_iff (hx : RefusesIff P x) (hfault : ∀ f, x ≠ .error (.fault f)) :
    (∃ e, x = .error (.declared e)) ↔ P := by
  refine ⟨fun ⟨e, he⟩ => hx.2 e he, fun hP => ?_⟩
  rcases hres : x with (e | f) | a
  · exact ⟨e, rfl⟩
  · exact absurd hres (hfault f)
  · exact absurd hP (hx.1 a hres)

end RefusesIff

end Verdict
