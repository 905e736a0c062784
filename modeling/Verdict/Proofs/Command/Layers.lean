import Verdict.Proofs.Command.ExitCode
import Verdict.Proofs.Command.Memory
/-!
# Layers of an evaluation

One rule is evaluated on what the configuration says and the arguments add. There are three kinds of
inputs, and each has an order of its own in which its sources win: context data, settings and the
date. `Layers` writes the orders down key by key, and `eval_layers` says that the rule is evaluated
by them whenever no fault ends the run, and what the run then answers.

The arguments are laid over copies, so the configuration that was loaded stays as it was. Tables
have no copies here; the section on memory has tables at places that can be written, carries out the
same steps on them, and finds the same evaluator and the configuration unchanged.
-/

namespace Verdict.Command

namespace Surroundings

variable {s : Surroundings} {config : Config} {data settings : List (Option String)}
  {date : Option (Option String)} {E : Evaluator}

/-! ## Precedence -/

/-- Where an evaluator has its inputs from: the arguments win over the configuration, and the
configuration over the process and the system. -/
structure Layers (s : Surroundings) (config : Config) (data settings : List (Option String))
    (date : Option (Option String)) (E : Evaluator) : Prop where
  /-- A key has the value that the last argument for it says. -/
  data_given {key raw : String} (given : lastAssigned? data key = some raw) :
    ∃ v, contextValue s.reader raw = .ok v ∧ E.data.find? key = some v
  /-- Without an argument a key has the value that it has in the configuration, if any. -/
  data_configured {key : String} (absent : lastAssigned? data key = none) :
    E.data.find? key = config.context.find? key
  /-- A setting is the text that the last argument for it gives. -/
  env_given {name raw : String} (given : lastAssigned? settings name = some raw) :
    E.env.find? name = .ok (some raw)
  /-- Without an argument a setting is that of the configuration, if that has settings. -/
  env_configured {name : String} {table : Table String}
    (absent : lastAssigned? settings name = none) (configured : config.env = some table) :
    E.env.find? name = .ok (table.find? name)
  /-- Without either it is that of the process, which is copied if arguments give other settings. -/
  env_process {name : String} (absent : lastAssigned? settings name = none)
    (unconfigured : config.env = none) :
    E.env.find? name = (if settings.isEmpty then s.environment.lookup
      else .ofTable s.environment.table).find? name
  /-- The date is the one that the arguments give. -/
  today_given {given : Option String} (present : date = some given) :
    ∃ text, given = some text ∧ Date.ofText? (Text.trim text) = some E.today
  /-- Without it the date is that of the configuration. -/
  today_configured {day : Date} (absent : date = none) (configured : config.today = some day) :
    E.today = day
  /-- Without either it is the system's. -/
  today_system (absent : date = none) (unconfigured : config.today = none) : E.today = s.today

/-- A date that is given is a date text. -/
theorem dateGiven_eq_ok {given : Option String} {today : Option Date}
    (h : dateGiven given = .ok today) :
    ∃ text day, given = some text ∧ Date.ofText? (Text.trim text) = some day ∧
      today = some day := by
  unfold dateGiven readDate at h
  cases given with
  | none =>
    dsimp only [Option.elim] at h
    split at h <;> cases h
  | some text =>
    dsimp only [Option.elim] at h
    split at h
    · next day hday =>
      cases h
      exact ⟨text, day, rfl, hday, rfl⟩
    · cases h

/-- The settings that there are without arguments. -/
abbrev configuredLookup (s : Surroundings) (configured : Option (Table String)) : Lookup :=
  (Settings.ofTable? configured).lookup s.environment

/-- Without arguments the settings stay as they are. -/
theorem settingsOf_nil (configured : Option (Table String)) :
    s.settingsOf configured [] = .ok configured := rfl

/-- Arguments are laid over a table of the settings that there would be without them. -/
theorem find?_of_settingsOf {configured env : Option (Table String)}
    (h : s.settingsOf configured settings = .ok env) (given : settings ≠ []) :
    ∃ extra, allAdded "--env" asGiven settings .empty = .ok extra ∧
      ∀ name, (s.configuredLookup env).find? name = .ok ((extra.find? name).or
        ((configured.getD s.environment.table).find? name)) := by
  unfold settingsOf at h
  rw [if_neg (by simpa using given)] at h
  obtain ⟨extra, hextra, rfl⟩ := map_eq_ok_iff.1 h
  exact ⟨extra, hextra, fun name => congrArg Except.ok (Table.find?_update_entries _ _ _)⟩

/-- The settings that arguments for others leave: those of the configuration, if it has any, and
else those of the process, which are copied if there are arguments. -/
def settingsBeneath (s : Surroundings) (configured : Option (Table String))
    (settings : List (Option String)) : Lookup :=
  match configured with
  | some table => .ofTable table
  | none => if settings.isEmpty then s.environment.lookup else .ofTable s.environment.table

/-- What a setting is to an evaluator: the text that the last argument for it gives, or what the
arguments leave. -/
theorem setting_of_settingsOf {configured env : Option (Table String)}
    (h : s.settingsOf configured settings = .ok env) (name : String) :
    (s.configuredLookup env).find? name =
      match lastAssigned? settings name with
      | some raw => .ok (some raw)
      | none => (s.settingsBeneath configured settings).find? name := by
  by_cases hnone : settings = []
  · subst hnone
    rw [settingsOf_nil] at h
    cases h
    cases configured <;> rfl
  · obtain ⟨extra, hextra, hfind⟩ := find?_of_settingsOf h hnone
    rw [hfind]
    cases hlast : lastAssigned? settings name with
    | some raw =>
      obtain ⟨v, hv, hgiven⟩ := find?_of_given hextra hlast
      cases hv
      rw [hgiven, Option.some_or]
    | none =>
      rw [find?_of_absent hextra hlast, Option.none_or]
      cases configured with
      | some table => rfl
      | none =>
        rw [settingsBeneath, if_neg (by simpa using hnone)]
        rfl

/-- An evaluator that is made has its inputs in the order of `Layers`. -/
theorem layers_of_layered (h : s.layered config data settings date = .ok E) :
    s.Layers config data settings date E := by
  -- the row of steps, taken apart: the overridden configuration, and the data laid over its own
  obtain ⟨overridden, hoverridden, h⟩ := bind_eq_ok_iff.1 h
  obtain ⟨today, htoday, hoverridden⟩ := bind_eq_ok_iff.1 hoverridden
  obtain ⟨env, henv, hoverridden⟩ := bind_eq_ok_iff.1 hoverridden
  cases hoverridden
  obtain ⟨extra, hextra, h⟩ := bind_eq_ok_iff.1 h
  cases h
  have hdata : ∀ key, (s.evaluator { config with today, env } extra).data.find? key =
      (extra.find? key).or (config.context.find? key) :=
    fun key => Table.find?_update_entries _ _ _
  have hsetting : ∀ name, (s.evaluator { config with today, env } extra).env.find? name = _ :=
    setting_of_settingsOf henv
  have hday : (s.evaluator { config with today, env } extra).today =
      (Clock.ofDate? today).today s.today := rfl
  constructor
  case data_given =>
    intro key raw hlast
    obtain ⟨v, hv, hfind⟩ := find?_of_given hextra hlast
    exact ⟨v, hv, by rw [hdata, hfind, Option.some_or]⟩
  case data_configured =>
    intro key hlast
    rw [hdata, find?_of_absent hextra hlast, Option.none_or]
  case env_given =>
    intro name raw hlast
    rw [hsetting, hlast]
  case env_configured =>
    intro name table hlast hconfigured
    rw [hsetting, hlast, hconfigured]
    rfl
  case env_process =>
    intro name hlast hunconfigured
    rw [hsetting, hlast, hunconfigured]
    rfl
  case today_given =>
    rintro day rfl
    obtain ⟨text, day, rfl, hparsed, rfl⟩ := dateGiven_eq_ok htoday
    exact ⟨text, rfl, hparsed⟩
  case today_configured =>
    rintro day rfl hconfigured
    cases htoday
    rw [hday, hconfigured]
    rfl
  case today_system =>
    rintro rfl hunconfigured
    cases htoday
    rw [hday, hunconfigured]
    rfl

/-! ## One rule -/

/-- Whether the evaluation of one rule ends in an error of the configuration, of the arguments or of
a clause. -/
inductive EvalRefused (s : Surroundings) (site : Site) (rule : String)
    (data settings : List (Option String)) (date : Option (Option String)) : Prop
  /-- The configuration is refused. -/
  | loading {e : ConfigError} (refused : (s.load site).result = .error (.declared e))
  /-- What the arguments give is refused. -/
  | options {config : Config} {e : ConfigError} (loaded : (s.load site).result = .ok config)
    (refused : s.layered config data settings date = .error (.declared e))
  /-- A clause cannot be decided. -/
  | clause {config : Config} {E : Evaluator} {e : ClauseError}
    (loaded : (s.load site).result = .ok config)
    (layered : s.layered config data settings date = .ok E)
    (refused : (E.evaluate rule s.bits).result = .error (.declared e))

variable {site : Site} {rule : String} {verbose : Bool} {c : Completion}

/-- An evaluation that ends with a code is refused, or has the answer of the rule. -/
theorem refused_or_answered (h : s.runEval site rule data settings date verbose = .ok c) :
    s.EvalRefused site rule data settings date ∧ c.IsRefusal ∨
    ∃ config E b, (s.load site).result = .ok config ∧
      s.layered config data settings date = .ok E ∧ (E.evaluate rule s.bits).result = .ok b ∧
      c.exit = (if b then 0 else 1) ∧ c.output = (if b then "true\n" else "false\n") := by
  -- whichever layer refuses, the completion is the refusal of its error
  unfold runEval at h
  dsimp only at h
  split at h
  · next e hload =>
    obtain ⟨⟨e', rfl⟩, hc⟩ := refused_of_reply configRefusal_eq h
    exact .inl ⟨.loading hload, hc⟩
  · next config hload =>
    split at h
    · next e hlayered =>
      obtain ⟨⟨e', rfl⟩, hc⟩ := refused_of_reply configRefusal_eq h
      exact .inl ⟨.options hload hlayered, hc⟩
    · next E hlayered =>
      cases hresult : (E.evaluate rule s.bits).result with
      | ok b =>
        rw [hresult] at h
        cases h
        refine .inr ⟨config, E, b, hload, hlayered, hresult, rfl, ?_⟩
        cases b <;> rfl
      | error e =>
        rw [hresult] at h
        obtain ⟨⟨e', rfl⟩, hc⟩ := refused_of_reply clauseRefusal_eq h
        exact .inl ⟨.clause hload hlayered hresult, hc⟩

/-- What has an answer was not refused. -/
theorem not_evalRefused {b : Bool} (loaded : (s.load site).result = .ok config)
    (layered : s.layered config data settings date = .ok E)
    (answered : (E.evaluate rule s.bits).result = .ok b) :
    ¬ s.EvalRefused site rule data settings date := by
  rintro (refused | ⟨loaded', refused⟩ | ⟨loaded', layered', refused⟩)
  · cases loaded.symm.trans refused
  · cases loaded.symm.trans loaded'
    cases layered.symm.trans refused
  · cases loaded.symm.trans loaded'
    cases layered.symm.trans layered'
    cases answered.symm.trans refused

end Surroundings

/-- **How the inputs of an evaluation are layered.** Suppose that no fault ends the evaluation of a
rule. It has the code 2, with nothing on the standard output and a reason on the error output,
exactly when the configuration, the arguments or a clause are refused. Otherwise the rule has an
answer, which is the code and the standard output. The evaluator that gives it has its inputs in the
order of `Layers`, and finding it leaves the configuration that was loaded as it was. -/
theorem eval_layers {s : Surroundings} {place : Place} {rule : String}
    {data settings : List (Option String)} {date : Option (Option String)} {verbose : Bool}
    {c : Completion}
    (h : s.runRequest (.eval place rule data settings date verbose) = .ok c) :
    ∃ site, place.site s.resolve = .ok site ∧
      (c.exit = 2 ↔ s.EvalRefused site rule data settings date) ∧
      (c.exit = 2 → c.output = "" ∧ c.errors ≠ "") ∧
      (¬ s.EvalRefused site rule data settings date → ∃ config E b,
        (s.load site).result = .ok config ∧ s.layered config data settings date = .ok E ∧
        (E.evaluate rule s.bits).result = .ok b ∧
        c.exit = (if b then 0 else 1) ∧ c.output = (if b then "true\n" else "false\n")) ∧
      ∀ config E, (s.load site).result = .ok config →
        s.layered config data settings date = .ok E →
        s.Layers config data settings date E ∧
        ∀ m r, Memory.Holds m r config →
          ∃ m', s.layeredIn m r data settings date = .ok (m', E) ∧ m'.Holds r config := by
  obtain ⟨site, located, h⟩ := bind_eq_ok_iff.1 h
  have hlayers : ∀ config E, (s.load site).result = .ok config →
      s.layered config data settings date = .ok E →
      s.Layers config data settings date E ∧ ∀ m r, Memory.Holds m r config →
        ∃ m', s.layeredIn m r data settings date = .ok (m', E) ∧ m'.Holds r config :=
    fun config E _ hlayered => ⟨Surroundings.layers_of_layered hlayered,
      fun m r hm => Surroundings.layeredIn_of_layered hm hlayered⟩
  refine ⟨site, located, ?_⟩
  -- refusals have the code 2 and answers another one, so that the code tells them apart
  rcases Surroundings.refused_or_answered h with ⟨refused, hexit, hrefusal⟩ | answered
  · exact ⟨iff_of_true hexit refused, fun _ => hrefusal, fun hnot => absurd refused hnot, hlayers⟩
  · obtain ⟨config, E, b, loaded, layered, answer, hexit, -⟩ := id answered
    have hne : c.exit ≠ 2 := by
      rw [hexit]
      cases b <;> decide
    exact ⟨iff_of_false hne (Surroundings.not_evalRefused loaded layered answer),
      fun h2 => absurd h2 hne, fun _ => answered, hlayers⟩

/-- Of repeated options the last one wins, over the process as well. -/
theorem eval_layers_repeated_options :
    let s : Surroundings := ⟨Location.top.seek, fun _ => .file (.ok .null), Yaml.reader,
      .ofTable (.ofList [("MODE", "w")]), .first, fun _ => false⟩
    let data := [some "plan=pro", some "plan=team"]
    let settings := [some "MODE=x", some "MODE=y"]
    s.runRequest (.eval ⟨some ".", none⟩ "eq:plan,team&&env:MODE,y" data settings
        (some (some "2017-03-29")) false) = .ok ⟨0, "true\n", ""⟩ ∧
      ∃ site config E v, (s.load site).result = .ok config ∧
        s.layered config data settings (some (some "2017-03-29")) = .ok E ∧
        contextValue s.reader "team" = .ok v ∧ E.data.find? "plan" = some v ∧
        E.env.find? "MODE" = .ok (some "y") ∧
        Date.ofText? (Text.trim "2017-03-29") = some E.today := by
  intro s data settings
  have h : s.runRequest (.eval ⟨some ".", none⟩ "eq:plan,team&&env:MODE,y" data settings
      (some (some "2017-03-29")) false) = .ok ⟨0, "true\n", ""⟩ := by decide +kernel
  obtain ⟨site, -, hexit, -, hanswer, hlayers⟩ := eval_layers h
  have hnot : ¬ s.EvalRefused site "eq:plan,team&&env:MODE,y" data settings
      (some (some "2017-03-29")) := fun refused => absurd (hexit.2 refused) (by decide)
  obtain ⟨config, E, b, loaded, layered, -⟩ := hanswer hnot
  have hE := (hlayers config E loaded layered).1
  have hlastPlan : lastAssigned? data "plan" = some "team" := by decide +kernel
  have hlastMode : lastAssigned? settings "MODE" = some "y" := by decide +kernel
  obtain ⟨v, hv, hplan⟩ := hE.data_given hlastPlan
  obtain ⟨text, htext, htoday⟩ := hE.today_given rfl
  cases htext
  exact ⟨h, site, config, E, v, loaded, layered, hv, hplan, hE.env_given hlastMode, htoday⟩

end Verdict.Command
