import Verdict.Text.Blank
import Verdict.Text.Fields
/-!
# Clauses

A clause is a predicate's name and, behind the first colon, its arguments between commas. Blanks
around the name and around each argument do not count. Behind a colon there may be nothing but
blanks, and then there are no arguments. Colon and comma cannot be escaped.
-/

namespace Verdict

open Text

/-- A call of a predicate as it stands in a rule. -/
structure Clause where
  /-- The name of the predicate. -/
  name : String
  /-- The arguments. -/
  args : List String
  /-- The text that the clause was read from. -/
  text : String
  deriving DecidableEq, Repr

namespace Clause

/-- The arguments that stand behind the colon. -/
def argsOfChars (cs : List Char) : List String :=
  if cs.all isBlank then [] else (fields ',' cs).map fun f => String.ofList (trimChars f)

/-- The clause that a text writes. Every text writes one. -/
def parse (text : String) : Clause where
  name := String.ofList (trimChars (text.toList.takeWhile (· ≠ ':')))
  args := argsOfChars ((text.toList.dropWhile (· ≠ ':')).drop 1)
  text := text

/-- A clause written without blanks. -/
def render (name : String) (args : List String) : String :=
  if args.isEmpty then name else name ++ ":" ++ ",".intercalate args

/-- The first colon ends the name, and what follows it are the arguments. -/
theorem parse_append_colon {name : List Char} (h : ':' ∉ name) (rest : List Char) :
    parse (String.ofList (name ++ ':' :: rest)) =
      ⟨String.ofList (trimChars name), argsOfChars rest, String.ofList (name ++ ':' :: rest)⟩ := by
  have hall : ∀ c ∈ name, decide (c ≠ ':') = true :=
    fun c hc => decide_eq_true fun he => h (he ▸ hc)
  rw [parse, String.toList_ofList, List.takeWhile_append_of_pos hall,
    List.dropWhile_append_of_pos hall, List.takeWhile_cons_of_neg (by simp),
    List.dropWhile_cons_of_neg (by simp), List.append_nil, List.drop_succ_cons, List.drop_zero]

/-- Without a comma there is one argument, unless there is nothing but blanks. -/
theorem argsOfChars_of_notMem {cs : List Char} (hcomma : ',' ∉ cs)
    (hblank : cs.all isBlank = false) : argsOfChars cs = [String.ofList (trimChars cs)] := by
  rw [argsOfChars, hblank, if_neg Bool.false_ne_true, fields_of_notMem hcomma, List.map_singleton]

end Clause

end Verdict
