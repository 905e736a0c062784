/-!
# Suggestions for misspelled keys

Two texts are alike to the degree that characters of the one stand in the same order in the other.
The longest run that both have in common is found first, the earliest in the first text and then in
the second one if there are several; then the same is done with what stands before it in both texts
and with what stands behind it. The *matching size* is the total length of these runs, and two texts
are near when twice that is at least three fifths of the sum of their lengths. The nearest allowed
key is suggested for an unknown one, of equally near keys the greatest.
-/

namespace Verdict

/-- The length of the longest common beginning. -/
def commonPrefixLength : List Char → List Char → Nat
  | a :: as, b :: bs => if a = b then commonPrefixLength as bs + 1 else 0
  | _, _ => 0

/-- A run that two texts have in common: where it starts in each, and how long it is. -/
structure Run where
  /-- Where it starts in the first text. -/
  left : Nat
  /-- Where it starts in the second text. -/
  right : Nat
  /-- Its length. -/
  size : Nat
  deriving DecidableEq, Repr

/-- The longer of two runs, the first when they are equally long. -/
def Run.longer (r s : Run) : Run := if r.size < s.size then s else r

/-- The longest common run of two texts, the earliest of the longest ones. -/
def longestRun (as bs : List Char) : Run :=
  (List.range as.length).foldl (fun best i =>
    (List.range bs.length).foldl (fun best j =>
      best.longer ⟨i, j, commonPrefixLength (as.drop i) (bs.drop j)⟩) best) ⟨0, 0, 0⟩

/-- The total length of the common runs of two texts. -/
def matchingSize (as bs : List Char) : Nat :=
  let r := longestRun as bs
  -- what lies before the run and what lies behind it are matched on their own
  if 0 < r.size ∧ r.left < as.length then
    matchingSize (as.take r.left) (bs.take r.right) + r.size +
      matchingSize (as.drop (r.left + r.size)) (bs.drop (r.right + r.size))
  else 0
termination_by as.length
decreasing_by
  · rename_i h
    rw [List.length_take]
    exact Nat.lt_of_le_of_lt (Nat.min_le_left _ _) h.2
  · rename_i h
    have h : 0 < (longestRun as bs).size ∧ (longestRun as bs).left < as.length := h
    rw [List.length_drop]
    omega

/-- Whether twice a matching size is at least three fifths of a total length. -/
def isNear (size total : Nat) : Bool := 3 * total ≤ 10 * size

/-- Whether `2 * m / t` is below `2 * n / u`, or equal to it with the text `a` below the text `b`.
-/
def lessAlike (m t : Nat) (a : String) (n u : Nat) (b : String) : Bool :=
  m * u < n * t || (m * u = n * t && a < b)

/-- The better of a key so far and the key `allowed`, as candidates for the key `given`. -/
def betterMatch (given : String) (best : Option String) (allowed : String) : Option String :=
  let size (key : String) := matchingSize key.toList given.toList
  let total (key : String) := key.length + given.length
  if isNear (size allowed) (total allowed) then
    match best with
    | none => some allowed
    | some b =>
      if lessAlike (size b) (total b) b (size allowed) (total allowed) allowed then some allowed
      else best
  else best

/-- The allowed key that is nearest to the given key, if one is near. -/
def nearestKey? (allowed : List String) (given : String) : Option String :=
  allowed.foldl (betterMatch given) none

end Verdict
