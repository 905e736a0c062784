import Verdict.Report.Json
/-!
# The schema of JSON reports

A schema says what documents may look like. The one for reports is an object with a date, whether
the report is passed, and the results, each of which is an object with the name of the rule, the
rule and whether it holds; names and rules have at least one character. A report keeps to all of
this but the length of names (`accepts_document`): it keeps to the whole exactly when no rule has
the empty name.
-/

namespace Verdict

/-! ## Schemas -/

/-- A class of characters in a pattern. -/
inductive CharClass where
  /-- The ten digits of ASCII. -/
  | digit
  /-- One character. -/
  | exactly (c : Char)

/-- Whether a class has a character. -/
def CharClass.has : CharClass → Char → Bool
  | .digit, c => '0' ≤ c && c ≤ '9'
  | .exactly d, c => c = d

/-- A pattern for a whole text: one class for each character. -/
abbrev Pattern := List CharClass

/-- Whether characters are those of a pattern. -/
def Pattern.fits : Pattern → List Char → Bool
  | [], [] => true
  | p :: ps, c :: cs => p.has c && Pattern.fits ps cs
  | _, _ => false

/-- What a document may look like. -/
inductive Schema where
  /-- A truth value. -/
  | boolean
  /-- A text with so many characters at least. -/
  | text (minLength : Nat)
  /-- A text of a pattern. -/
  | pattern (p : Pattern)
  /-- A list of documents that look alike. -/
  | array (items : Schema)
  /-- An object with certain members and no others. -/
  | object (members : List (String × Schema))

namespace Schema

mutual

/-- Whether a document looks like that. -/
def accepts : Schema → Json → Bool
  | .boolean, .bool _ => true
  | .text minLength, .text s => minLength ≤ s.length
  | .pattern p, .text s => p.fits s.toList
  | .array items, .list js => js.all items.accepts
  | .object schemas, .object members =>
    (schemas.map Prod.fst).all (fun name => (members.map Prod.fst).contains name) &&
      members.all fun m => admits schemas m.1 m.2
  | _, _ => false

/-- Whether a member is one of those that are described, and looks like that. -/
def admits : List (String × Schema) → String → Json → Bool
  | [], _, _ => false
  | (key, schema) :: schemas, name, j =>
    if key = name then schema.accepts j else admits schemas name j

end

end Schema

/-! ## Reports -/

namespace Report

/-- The pattern of a date: four digits, two and two, with hyphens between them. -/
def datePattern : Pattern :=
  List.replicate 4 .digit ++ .exactly '-' :: List.replicate 2 .digit ++
    .exactly '-' :: List.replicate 2 .digit

/-- The schema of a result, names having so many characters at least. -/
def resultSchema (nameLength : Nat) : Schema :=
  .object [("rule", .text nameLength), ("expression", .text 1), ("result", .boolean)]

/-- The schema of a report, names having so many characters at least. -/
def schemaOf (nameLength : Nat) : Schema :=
  .object [("today", .pattern datePattern), ("passed", .boolean),
    ("results", .array (resultSchema nameLength))]

/-- The schema of a report. -/
def schema : Schema := schemaOf 1

end Report

/-! ## Dates -/

/-- Characters that fit patterns one after the other fit them as one. -/
theorem Pattern.fits_append {p q : Pattern} {cs ds : List Char} (hp : p.fits cs = true)
    (hq : q.fits ds = true) : Pattern.fits (p ++ q) (cs ++ ds) = true := by
  induction p generalizing cs with
  | nil =>
    cases cs with
    | nil => exact hq
    | cons c cs => cases hp
  | cons charClass p ih =>
    cases cs with
    | nil => cases hp
    | cons c cs =>
      rw [fits, Bool.and_eq_true] at hp
      rw [List.cons_append, List.cons_append, fits, hp.1, ih hp.2]
      rfl

/-- Digits of a fixed width fit as many marks for digits. -/
theorem Date.fits_paddedDigits (width n : Nat) :
    Pattern.fits (List.replicate width .digit) (paddedDigits width n) = true := by
  induction width generalizing n with
  | zero => rfl
  | succ width ih =>
    have hdigit : ∀ d < 10, CharClass.digit.has (Text.hexDigit d) = true := by decide
    rw [List.replicate_succ', paddedDigits]
    refine Pattern.fits_append (ih _) ?_
    rw [Pattern.fits, hdigit _ (Nat.mod_lt n (by decide))]
    rfl

/-- A date is written as dates are. -/
theorem Date.fits_text (d : Date) : Report.datePattern.fits d.text.toList = true := by
  rw [text, String.toList_ofList]
  have hyphen {p : Pattern} {cs : List Char} (h : p.fits cs = true) :
      Pattern.fits (.exactly '-' :: p) ('-' :: cs) = true := h
  exact Pattern.fits_append
    (Pattern.fits_append (fits_paddedDigits 4 _) (hyphen (fits_paddedDigits 2 _)))
    (hyphen (fits_paddedDigits 2 _))

/-! ## Results -/

namespace Report

theorem accepts_resultJson {nameLength : Nat} {r : RuleResult} (hrule : r.rule ≠ "") :
    (resultSchema nameLength).accepts (resultJson r) = decide (nameLength ≤ r.name.length) := by
  have hlength : 1 ≤ r.rule.length := Nat.pos_of_ne_zero (by simpa using hrule)
  simp [resultSchema, resultJson, Schema.accepts, Schema.admits, hlength]

/-- Whatever is asked of names, a report without blank rules keeps to the rest. -/
theorem accepts_document {nameLength : Nat} {today : Date} {rs : List RuleResult}
    (hrules : ∀ r ∈ rs, r.rule ≠ "") :
    (schemaOf nameLength).accepts (document today rs) =
      rs.all fun r => nameLength ≤ r.name.length := by
  have hresults : (rs.map resultJson).all (resultSchema nameLength).accepts =
      rs.all fun r => nameLength ≤ r.name.length := by
    rw [List.all_map, Bool.eq_iff_iff, List.all_eq_true, List.all_eq_true]
    refine forall₂_congr fun r hr => ?_
    rw [Function.comp_apply, accepts_resultJson (hrules r hr)]
  simp [schemaOf, document, Schema.accepts, Schema.admits, today.fits_text, hresults]

end Report

end Verdict
