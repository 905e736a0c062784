/-!
# Ranges of characters

A class of characters is given by closed ranges of code points. Membership is one pass over the
ranges; the tables of `Verdict.Text.Blank` and `Verdict.Text.Printable` are read through it.
-/

namespace Verdict.Text

/-- A class of characters as closed ranges of code points. -/
abbrev Ranges := List (Nat × Nat)

/-- Whether the code point `n` lies in one of the ranges. -/
def Ranges.covers (rs : Ranges) (n : Nat) : Bool :=
  rs.any fun r => r.1 ≤ n && n ≤ r.2

@[simp] theorem Ranges.covers_nil (n : Nat) : Ranges.covers [] n = false := rfl

@[simp] theorem Ranges.covers_cons (r : Nat × Nat) (rs : Ranges) (n : Nat) :
    Ranges.covers (r :: rs) n = ((r.1 ≤ n && n ≤ r.2) || Ranges.covers rs n) := rfl

/-- A code point is in the class exactly when one of the ranges holds it. -/
theorem Ranges.covers_iff {rs : Ranges} {n : Nat} :
    rs.covers n = true ↔ ∃ r ∈ rs, r.1 ≤ n ∧ n ≤ r.2 := by
  simp [Ranges.covers]

end Verdict.Text
