import Mathlib.Data.List.Basic
import Verdict.Proofs.Calendar.DateText
import Verdict.Proofs.Report.Grammar
/-!
# What a JSON report says

A JSON report is made of ASCII, and by the grammar of JSON it says the date, whether all rules hold,
and the results in order, with every name and rule as it is. It says nothing else, so results that
differ have reports that differ (`json_faithful`).
-/

namespace Verdict

namespace Json

open Text

/-! ## ASCII -/

/-- Whether characters are those of ASCII. -/
def IsAscii (cs : List Char) : Prop := ∀ c ∈ cs, c.toNat < 128

theorem isAscii_of_all {cs : List Char} (h : cs.all (fun c => c.toNat < 128) = true) :
    IsAscii cs := by
  simpa [IsAscii] using h

theorem IsAscii.append {cs ds : List Char} (h : IsAscii cs) (h' : IsAscii ds) :
    IsAscii (cs ++ ds) :=
  List.forall_mem_append.2 ⟨h, h'⟩

theorem IsAscii.cons {c : Char} {cs : List Char} (hc : c.toNat < 128) (h : IsAscii cs) :
    IsAscii (c :: cs) :=
  List.forall_mem_cons.2 ⟨hc, h⟩

theorem isAscii_hexDigits (width n : Nat) : IsAscii (hexDigits width n) := by
  induction width generalizing n with
  | zero => exact List.forall_mem_nil _
  | succ width ih =>
    have hdigit : ∀ d < 16, (hexDigit d).toNat < 128 := by decide
    exact (ih _).append (List.forall_mem_singleton.2 (hdigit _ (Nat.mod_lt n (by decide))))

/-- Every character is written in ASCII. -/
theorem isAscii_charText (c : Char) : IsAscii (charText c) := by
  have hunit : ∀ u, IsAscii (unitText u) := by
    intro u
    unfold unitText
    split
    · next hascii =>
      have hsmall : ∀ n < 128, (charText (Char.ofNat n)).all (fun d => d.toNat < 128) = true := by
        decide
      exact isAscii_of_all (hsmall u hascii)
    · exact .cons (by decide) (.cons (by decide) (isAscii_hexDigits 4 u))
  rw [charText_eq]
  intro d hd
  obtain ⟨u, -, hu⟩ := List.mem_flatMap.1 hd
  exact hunit u d hu

theorem isAscii_quote (s : String) : IsAscii (quote s) := by
  refine .append (.cons (by decide) fun c hc => ?_) (List.forall_mem_singleton.2 (by decide))
  obtain ⟨d, -, hd⟩ := List.mem_flatMap.1 hc
  exact isAscii_charText d c hd

theorem isAscii_newline (level : Nat) : IsAscii (newline level) := by
  refine .cons (by decide) fun c hc => ?_
  rw [List.eq_of_mem_replicate hc]
  decide

/-- Items in ASCII with commas between them are in ASCII. -/
theorem isAscii_separated {items : List (List Char)} (h : ∀ item ∈ items, IsAscii item) :
    IsAscii (separated items) := by
  induction items with
  | nil => exact List.forall_mem_nil _
  | cons item items ih =>
    obtain ⟨hitem, hitems⟩ := List.forall_mem_cons.1 h
    cases items with
    | nil => exact hitem
    | cons second items =>
      rw [separated_cons _ (List.cons_ne_nil _ _)]
      exact hitem.append (.cons (by decide) (ih hitems))

theorem isAscii_bracketed {opening closing : Char} {level : Nat} {items : List (List Char)}
    (hopening : opening.toNat < 128) (hclosing : closing.toNat < 128)
    (h : ∀ item ∈ items, IsAscii item) : IsAscii (bracketed opening closing level items) := by
  have hend : IsAscii [closing] := List.forall_mem_singleton.2 hclosing
  unfold bracketed
  split
  · exact .cons hopening hend
  · refine .append (.append (.cons hopening (isAscii_separated ?_)) (isAscii_newline level)) hend
    exact List.forall_mem_map.2 fun item hitem => (isAscii_newline _).append (h item hitem)

/-- A document is written in ASCII, whatever is in it. -/
theorem isAscii_chars (j : Json) (level : Nat) : IsAscii (chars level j) := by
  induction j using parts_induction generalizing level with
  | bool b =>
    have hwords : ∀ b : Bool,
        (if b then "true" else "false").toList.all (fun c => c.toNat < 128) = true := by decide
    exact isAscii_of_all (hwords b)
  | text s => exact isAscii_quote s
  | list js ih =>
    rw [chars, itemChars_eq]
    exact isAscii_bracketed (by decide) (by decide)
      (List.forall_mem_map.2 fun j hj => ih j hj _)
  | object ms ih =>
    rw [chars, memberChars_eq]
    refine isAscii_bracketed (by decide) (by decide) (List.forall_mem_map.2 fun m hm => ?_)
    exact (isAscii_quote _).append (.cons (by decide) (.cons (by decide) (ih m hm _)))

end Json

/-! ## Reports -/

/-- Dates with one text are one date. -/
theorem Date.text_injective {d e : Date} (h : d.text = e.text) : d = e := by
  have hread : Date.ofText? e.text = some d := Date.ofText?_eq_some_iff.2 (.inl h.symm)
  exact Option.some.inj (hread.symm.trans (Date.ofText?_eq_some_iff.2 (.inl rfl)))

namespace Report

open Json (Meaning)

/-- What the report of a result says. -/
def resultMeaning (r : RuleResult) : Meaning :=
  .object [("expression", .text r.rule), ("result", .bool r.holds), ("rule", .text r.name)]

/-- What a report says. -/
def reportMeaning (today : Date) (rs : List RuleResult) : Meaning :=
  .object [("passed", .bool (rs.all RuleResult.holds)), ("results", .list (rs.map resultMeaning)),
    ("today", .text today.text)]

theorem meaning_document (today : Date) (rs : List RuleResult) :
    (document today rs).meaning = reportMeaning today rs := by
  have hresults : Json.itemMeanings (rs.map resultJson) = rs.map resultMeaning := by
    rw [Json.itemMeanings_eq, List.map_map]
    rfl
  simp only [document, Json.meaning, Json.memberMeanings, hresults]
  rfl

theorem resultMeaning_injective : Function.Injective resultMeaning := by
  rintro ⟨name, rule, holds⟩ ⟨name', rule', holds'⟩ h
  cases h
  rfl

theorem reportMeaning_injective {today today' : Date} {rs rs' : List RuleResult}
    (h : reportMeaning today rs = reportMeaning today' rs') : today = today' ∧ rs = rs' := by
  simp only [reportMeaning, Meaning.object.injEq, List.cons.injEq, Prod.mk.injEq,
    Meaning.list.injEq, Meaning.text.injEq, true_and, and_true] at h
  obtain ⟨-, hresults, htoday⟩ := h
  exact ⟨Date.text_injective htoday, resultMeaning_injective.list_map hresults⟩

/-- **A JSON report is faithful.** Whatever names and rules the results have, the report of an
evaluator is made of ASCII. It means, by the grammar of JSON, the text of today's date, whether all
results hold, and the results in order, each with its name and its rule as they are, and it means
nothing else. So two reports are one only if they are of one day and of the same results. -/
theorem json_faithful (E : Evaluator) (rs : List RuleResult) :
    (∀ c ∈ (json E.today rs).toList, c.toNat < 128) ∧
    (∀ m, Json.Means (json E.today rs) m ↔
      m = .object [("passed", .bool (rs.all RuleResult.holds)),
        ("results", .list (rs.map fun r => .object
          [("expression", .text r.rule), ("result", .bool r.holds), ("rule", .text r.name)])),
        ("today", .text E.today.text)]) ∧
    ∀ (E' : Evaluator) (rs' : List RuleResult),
      json E.today rs = json E'.today rs' ↔ E.today = E'.today ∧ rs = rs' := by
  have hmeans (today : Date) (rs : List RuleResult) (m : Meaning) :
      Json.Means (json today rs) m ↔ m = reportMeaning today rs := by
    rw [← meaning_document]
    exact Json.means_render_iff _ m
  refine ⟨?_, hmeans E.today rs, fun E' rs' => ⟨fun h => ?_, ?_⟩⟩
  · rw [json, Json.render, String.toList_ofList]
    exact Json.isAscii_chars _ 0
  · have hreport := (hmeans E.today rs _).2 rfl
    rw [h, hmeans] at hreport
    exact reportMeaning_injective hreport
  · rintro ⟨htoday, rfl⟩
    rw [htoday]

end Report

end Verdict
