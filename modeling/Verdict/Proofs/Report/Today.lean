import Verdict.Proofs.Attempt
import Verdict.Proofs.Calendar.IsoText
import Verdict.Proofs.Config.Rules
import Verdict.Proofs.Report.Reading
import Verdict.Proofs.Text.Trimming
/-!
# The date of a report

A date comes into a configuration as a date, as a moment or as a text, and leaves it as the text in
a report. Whatever stands for a date is read as that date (`readDate_of_standsFor`), an evaluator
over the configuration has it for today, and the text that its reports hold under `today` stands for
the date again.
-/

namespace Verdict

open Text

/-- Whether a value stands for a date: it is the date, a moment of that day, or a text that spells
the date, perhaps with blanks around it. -/
inductive Value.StandsFor (d : Date) : Value → Prop
  /-- The date itself. -/
  | date : StandsFor d (.date d)
  /-- A moment of the day, on whatever clock. -/
  | moment {m : Moment} (day : m.date = d) : StandsFor d (.moment m)
  /-- A spelling of the date between blanks. -/
  | text {before after : String} (spelling : Date.Spelling)
    (blankBefore : isBlankText before = true) (blankAfter : isBlankText after = true) :
    StandsFor d (.text (before ++ String.ofList (d.spelled spelling) ++ after))

variable {d : Date} {v : Value}

theorem Date.trim_spelled (d : Date) (spelling : Date.Spelling) :
    trim (String.ofList (d.spelled spelling)) = String.ofList (d.spelled spelling) := by
  rw [trim, String.toList_ofList,
    trimChars_of_forall fun c hc => (isPlain_of_mem_spelled hc).2]

/-- What stands for a date is read as the date. -/
theorem readDate_of_standsFor (h : v.StandsFor d) (key : String) :
    readDate key v = .ok (some d) := by
  cases h with
  | date => rfl
  | moment day => rw [readDate, day]
  | text spelling blankBefore blankAfter =>
    rw [readDate, trim_append blankBefore blankAfter, d.trim_spelled, d.ofText?_spelled]

/-- The text of a date stands for it. -/
theorem standsFor_text (d : Date) : (Value.text d.text).StandsFor d := by
  have hspelled : d.text = "" ++ String.ofList (d.spelled (.byMonth true)) ++ "" := by
    rw [String.empty_append, String.append_empty]
    rfl
  rw [hspelled]
  exact .text _ rfl rfl

/-- A date does not lead out of itself, so it is seen as it stands in a document. -/
theorem sectionTaken_of_standsFor {entries : List (Value × Value)} {name : String}
    (h : (sectionValue entries name).StandsFor d) :
    sectionTaken entries name = sectionValue entries name := by
  unfold sectionValue at h ⊢
  cases hv : Value.entry? name entries with
  | none =>
    rw [hv] at h
    cases h
  | some v =>
    rw [hv] at h
    cases v with
    | enclosing => cases h
    | date => exact sectionTaken_eq hv nofun
    | moment => exact sectionTaken_eq hv nofun
    | text => exact sectionTaken_eq hv nofun
    | _ => cases h

/-- A document with nothing but a date makes a configuration. -/
theorem ofEntries_of_standsFor (h : v.StandsFor d) :
    Config.ofEntries [(.text "today", v)] = .ok { Config.default with today := some d } := by
  have hkeys : orFault (keyTexts [(.text "today", v)]) =
      (.ok ["today"] : Except (Failure ConfigError) (List String)) := rfl
  have hknown : (unknownKeys ["today"]).eraseDups = [] := by decide +kernel
  have htoday : sectionTaken [(.text "today", v)] "today" = v := by
    cases h <;> rfl
  have hcontext : sectionTaken [(.text "today", v)] "context" = .null := rfl
  have henv : sectionValue [(.text "today", v)] "env" = .null := rfl
  have hrules : sectionValue [(.text "today", v)] "rules" = .null := rfl
  rw [Config.ofEntries, hkeys, htoday, hcontext, henv, hrules, readDate_of_standsFor h]
  simp only [bind, Except.bind, hknown]
  rfl

/-- The report of an evaluator, read back, has the date of the evaluator under `today`. -/
theorem find?_today_of_json (today : Date) (rs : List RuleResult) :
    (Json.read? (Report.json today rs)).bind (Json.find? "today") = some (.text today.text) := by
  rw [Report.read?_json]
  rfl

/-- **Dates survive the way from a configuration to a report.** A value that stands for a date is
read as that date under every key. A document with nothing but the value under `today` makes a
configuration with the date, and every other document with it does, if it makes one. An evaluator
over a configuration with the date is one of that day, whatever the system's date is, and its
reports, read back, have under `today` the text of the date, which is read as the date again. -/
theorem date_of_report (h : v.StandsFor d) :
    (∀ key, readDate key v = .ok (some d)) ∧
    Config.ofEntries [(.text "today", v)] = .ok { Config.default with today := some d } ∧
    (∀ entries c, sectionValue entries "today" = v → Config.ofEntries entries = .ok c →
      c.today = some d) ∧
    ∀ (c : Config) extra system process rs, c.today = some d →
      (Json.read? (Report.json (c.evaluator extra system process).today rs)).bind
          (Json.find? "today") = some (.text d.text) ∧
        ∀ key, readDate key (.text d.text) = .ok (some d) := by
  refine ⟨readDate_of_standsFor h, ofEntries_of_standsFor h, ?_, ?_⟩
  · rintro entries c rfl hc
    have hread := (readings_of_ofEntries hc).1
    rw [sectionTaken_of_standsFor h, readDate_of_standsFor h] at hread
    exact (Except.ok.inj hread).symm
  · intro c extra system process rs hc
    have htoday : (c.evaluator extra system process).today = d := by
      rw [Config.evaluator, Evaluator.make, Config.clock, hc]
      rfl
    rw [htoday]
    exact ⟨find?_today_of_json d rs, readDate_of_standsFor (standsFor_text d)⟩

/-- The first day of 2016 lies in the last week of 2015. -/
theorem date_of_report_new_year :
    let d : Date := ⟨2016, 1, 1, by decide, by decide⟩
    (Value.text " 2015-W53-5\n").StandsFor d ∧ d.text = "2016-01-01" ∧
      readDate "--date" (.text " 2015-W53-5\n") = .ok (some d) ∧
      Config.ofEntries [(.text "today", .text " 2015-W53-5\n")] =
        .ok { Config.default with today := some d } := by
  intro d
  have hspelled : " 2015-W53-5\n" = " " ++ String.ofList (d.spelled (.byWeek true)) ++ "\n" := by
    decide
  have h : (Value.text " 2015-W53-5\n").StandsFor d := by
    rw [hspelled]
    exact .text _ (by decide) (by decide)
  obtain ⟨hread, hloaded, -, -⟩ := date_of_report h
  exact ⟨h, by decide, hread "--date", hloaded⟩

end Verdict
