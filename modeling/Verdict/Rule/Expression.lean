import Verdict.Rule.Clause
/-!
# Expressions

An expression is one clause, or two joined by a combinator: `&&` when both must hold, `||` when one
must. The first combinator of a text joins; whatever follows it, further combinators too, belongs to
the right operand, and no character of the text is lost.
-/

namespace Verdict

/-- What joins two clauses. -/
inductive Combinator where
  /-- Both hold. -/
  | and
  /-- One holds. -/
  | or
  deriving DecidableEq, Repr

namespace Combinator

/-- The character that is written twice for the combinator. -/
def mark : Combinator → Char
  | .and => '&'
  | .or => '|'

/-- How the combinator is written. -/
def token (op : Combinator) : String := String.ofList [op.mark, op.mark]

/-- The value of the left operand that decides the whole. -/
def deciding : Combinator → Bool
  | .and => false
  | .or => true

/-- The combinator that two neighbouring characters write. -/
def ofPair? (a b : Char) : Option Combinator :=
  if a = '&' ∧ b = '&' then some .and else if a = '|' ∧ b = '|' then some .or else none

/-- The first combinator and what stands on either side of it. -/
def splitChars? : List Char → Option (List Char × Combinator × List Char)
  | [] => none
  | [_] => none
  | a :: b :: rest =>
    match ofPair? a b with
    | some op => some ([], op, rest)
    | none => (splitChars? (b :: rest)).map fun (left, op, right) => (a :: left, op, right)

/-- The place of the first combinator of a text, and which it is. -/
def find? (text : String) : Option (Nat × Combinator) :=
  (splitChars? text.toList).map fun (left, op, _) => (left.length, op)

/-- Whether a text holds a combinator. -/
def occursIn (text : String) : Bool := (splitChars? text.toList).isSome

/-- Taking a text apart loses nothing. -/
theorem append_of_splitChars? {cs left right : List Char} {op : Combinator}
    (h : splitChars? cs = some (left, op, right)) : left ++ op.mark :: op.mark :: right = cs := by
  induction cs generalizing left with
  | nil => simp [splitChars?] at h
  | cons a cs ih =>
    cases cs with
    | nil => simp [splitChars?] at h
    | cons b rest =>
      rw [splitChars?] at h
      -- the pair is a combinator, or the split is that of the tail
      split at h
      · next op' hp =>
        simp only [Option.some.injEq, Prod.mk.injEq] at h
        obtain ⟨rfl, rfl, rfl⟩ := h
        unfold ofPair? at hp
        split at hp
        · next hab => obtain ⟨rfl, rfl⟩ := hab; cases hp; rfl
        · split at hp
          · next hab => obtain ⟨rfl, rfl⟩ := hab; cases hp; rfl
          · cases hp
      · simp only [Option.map_eq_some_iff, Prod.mk.injEq, Prod.exists] at h
        obtain ⟨l, o, r, hs, rfl, rfl, rfl⟩ := h
        simp [ih hs]

end Combinator

/-- An expression before its clauses are read. -/
inductive Expression where
  /-- One clause. -/
  | single (text : String)
  /-- Two clauses and what joins them. -/
  | compound (left : String) (op : Combinator) (right : String)
  deriving DecidableEq, Repr

namespace Expression

/-- The expression that a text writes, split at its first combinator. -/
def split (text : String) : Expression :=
  match Combinator.splitChars? text.toList with
  | none => .single text
  | some (left, op, right) => .compound (String.ofList left) op (String.ofList right)

/-- The text of an expression. -/
def render : Expression → String
  | .single text => text
  | .compound left op right => left ++ op.token ++ right

/-- Splitting and joining again gives the text back. -/
theorem render_split (text : String) : (split text).render = text := by
  unfold split
  split
  · rfl
  · next left op right h =>
    have := Combinator.append_of_splitChars? h
    apply String.toList_inj.1
    simp [render, Combinator.token, ← this]

/-- The operands, left before right. -/
def operands : Expression → List String
  | .single text => [text]
  | .compound left _ right => [left, right]

end Expression

end Verdict
