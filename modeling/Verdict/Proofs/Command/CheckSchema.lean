import Verdict.Config.Disk
import Verdict.Proofs.Command.Check
import Verdict.Proofs.Report.Schema
/-!
# The schema of a check

What a check prints as JSON is read back here and held against the schema of reports. Rules are
never blank and dates are written in one way, since a configuration is not loaded otherwise. Nothing
of the kind is said of the names of rules: a report can break the schema by the empty name, and by
nothing else.
-/

namespace Verdict.Command

namespace Surroundings

variable {s : Surroundings} {site : Site} {names : List String} {json verbose : Bool}
  {c : Completion}

/-- The rules in a report are not empty. -/
theorem rule_ne_empty {config : Config} {rs : List RuleResult}
    (loaded : (s.load site).result = .ok config)
    (hresults : (s.evaluated site names).map Evaluation.result? = rs.map some) {r : RuleResult}
    (hr : r ∈ rs) : r.rule ≠ "" := by
  obtain ⟨v, hv, hresult⟩ := Evaluation.exists_of_mem_results hresults hr
  obtain ⟨named, -, hload⟩ := located_of_load loaded
  have hblank := isBlankText_of_loadConfig hload ((evaluated_prefix_requested loaded).2 v hv)
  rw [(Evaluation.result?_eq_some_iff.1 hresult).2.2]
  rintro hempty
  rw [hempty] at hblank
  cases hblank

end Surroundings

/-- **What the report of a check keeps to.** Every report that a check prints as JSON is read back
as a document that keeps to the schema but for the length of names, and to the whole schema exactly
when the empty name is not among the rules that are asked for. -/
theorem check_report_schema {s : Surroundings} {place : Place} {names : List String}
    {verbose : Bool} {c : Completion} (h : s.runRequest (.check place names true verbose) = .ok c)
    (reported : c.exit ≠ 2) :
    ∃ site config doc, place.site s.resolve = .ok site ∧ (s.load site).result = .ok config ∧
      Json.read? c.output = some doc ∧ (Report.schemaOf 0).accepts doc = true ∧
      (Report.schema.accepts doc = true ↔ "" ∉ config.requested names) := by
  obtain ⟨site, located, h⟩ := bind_eq_ok_iff.1 h
  have hchecked := Surroundings.runCheck_eq_ok_iff.1 h
  obtain ⟨-, config, rs, loaded, hnames, hresults, -, -, houtput⟩ :=
    hchecked.reported_of_exit reported
  have hrules : ∀ r ∈ rs, r.rule ≠ "" := fun r hr => Surroundings.rule_ne_empty loaded hresults hr
  refine ⟨site, config, Report.document (s.evaluator config .empty).today rs, located, loaded,
    ?_, ?_, ?_⟩
  · rw [houtput]
    exact (Json.read?_render _).2
  -- of names so many characters are asked as every text has
  · rw [Report.accepts_document hrules, List.all_eq_true]
    exact fun r _ => decide_eq_true (Nat.zero_le _)
  · have hlength (r : RuleResult) : 1 ≤ r.name.length ↔ r.name ≠ "" := by
      rw [Nat.one_le_iff_ne_zero, Ne, String.length_eq_zero_iff]
    rw [Report.schema, Report.accepts_document hrules, List.all_eq_true, ← hnames,
      ← Evaluation.names_of_results hresults, List.mem_map]
    simp only [decide_eq_true_eq, hlength, not_exists, not_and]

/-- A report on a rule with a name of one character keeps to the schema. -/
theorem check_report_schema_one_rule :
    let s : Surroundings := ⟨Location.top.seek, fun l => if l = .top then .directory else
      .file (.ok (.map [(.text "rules", .map [(.text "a", .text "never")])])), Yaml.reader, .empty,
      .first, fun _ => false⟩
    ∃ c doc, s.runRequest (.check ⟨some ".", none⟩ ["a"] true false) = .ok c ∧ c.exit = 1 ∧
      Json.read? c.output = some doc ∧ Report.schema.accepts doc = true := by
  intro s
  have hexit : (s.runRequest (.check ⟨some ".", none⟩ ["a"] true false)).map Completion.exit =
      .ok 1 := by decide +kernel
  obtain ⟨c, h, hexit⟩ := map_eq_ok_iff.1 hexit
  obtain ⟨site, config, doc, -, -, hread, -, hschema⟩ :=
    check_report_schema h (by rw [hexit]; decide)
  refine ⟨c, doc, h, hexit, hread, hschema.2 ?_⟩
  simp [Config.requested, List.eraseDups_cons]

/-- A rule with the empty name passes the diagnosis and is reported under that name. -/
theorem check_empty_name :
    let content : Location → Content := fun l =>
      if l = .top then .directory
      else if l = configLocation .top none then .file "rules:\n  \"\": always\n".toUTF8
      else .nothing
    let disk : Disk := ⟨Location.top.seek, content⟩
    let output := "\x7b\n  \"passed\": true,\n  \"results\": [\n    \x7b\n" ++
      "      \"expression\": \"always\",\n      \"result\": true,\n      \"rule\": \"\"\n" ++
      "    \x7d\n  ],\n  \"today\": \"0001-01-01\"\n\x7d\n"
    run ⟨disk.resolve, disk.storage Yaml.reader, Yaml.reader, .empty, .first, fun _ => false⟩
        ["check", "--json"] = .ok ⟨0, output, ""⟩ ∧
      (Json.read? output).map Report.schema.accepts = some false := by
  intro content disk output
  have houtput : output = (Report.document .first [⟨"", "always", true⟩]).render ++ "\n" := by
    decide +kernel
  refine ⟨by decide +kernel, ?_⟩
  rw [houtput, (Json.read?_render _).2]
  decide +kernel

end Verdict.Command
