import Verdict.Proofs.Command.ExitCode
import Verdict.Proofs.Config.Rules
import Verdict.Proofs.Report.Evaluations
/-!
# Selecting rules

A check evaluates the rules that are asked for, each once and in the order in which they first come,
or all if none are. The first name that no rule has refuses the selection as a whole, so that no
rule is evaluated then.
-/

namespace Verdict

/-- The names of the rules that are asked for: the given ones without repetition, or all. -/
def Config.requested (config : Config) (names : List String) : List String :=
  if names.isEmpty then config.rules.keys else names.eraseDups

namespace Command.Surroundings

variable {config : Config} {names : List String} {name rule : String} {rules : Table String}
  {e : ConfigError}

/-! ## One rule -/

theorem rule_eq_ok_iff : config.rule name = .ok rule ↔ config.rules.find? name = some rule := by
  unfold Config.rule
  cases config.rules.find? name <;> simp

theorem rule_eq_error_iff :
    config.rule name = .error e ↔
      name ∉ config.rules.keys ∧ e = .unknownRule name (sortTexts config.rules.keys) := by
  rw [← Table.find?_eq_none_iff]
  unfold Config.rule
  cases config.rules.find? name <;> simp [eq_comm]

/-! ## Rules in a row -/

/-- Rules are taken over one after the other if all are configured. -/
theorem foldlM_rule_eq_ok_iff {t t' : Table String} :
    names.foldlM (fun t name => (config.rule name).map (t.insert name)) t = .ok t' ↔
      ∃ es : List (String × String), es.map Prod.fst = names ∧
        (∀ e ∈ es, config.rules.find? e.1 = some e.2) ∧ t.update es = t' := by
  induction names generalizing t with
  | nil =>
    constructor
    · rintro ⟨⟩
      exact ⟨[], rfl, List.forall_mem_nil _, rfl⟩
    · rintro ⟨es, hes, -, rfl⟩
      rw [List.map_eq_nil_iff] at hes
      subst hes
      rfl
  | cons name names ih =>
    simp only [List.foldlM_cons, bind_eq_ok_iff, map_eq_ok_iff, rule_eq_ok_iff, ih]
    constructor
    · rintro ⟨_, ⟨rule, hrule, rfl⟩, es, rfl, hes, rfl⟩
      exact ⟨(name, rule) :: es, rfl, List.forall_mem_cons.2 ⟨hrule, hes⟩, rfl⟩
    · rintro ⟨es, hnames, hes, rfl⟩
      cases es with
      | nil => cases hnames
      | cons entry es =>
        obtain ⟨hentry, hes⟩ := List.forall_mem_cons.1 hes
        obtain ⟨rfl, rfl⟩ := List.cons.inj hnames
        exact ⟨_, ⟨entry.2, hentry, rfl⟩, es, rfl, hes, rfl⟩

/-- The first name that no rule has is the one that refuses them. -/
theorem foldlM_rule_eq_error_iff {t : Table String} :
    names.foldlM (fun t name => (config.rule name).map (t.insert name)) t = .error e ↔
      ∃ name, names.find? (· ∉ config.rules.keys) = some name ∧
        e = .unknownRule name (sortTexts config.rules.keys) := by
  induction names generalizing t with
  | nil => exact ⟨nofun, fun ⟨_, h, _⟩ => nomatch h⟩
  | cons name names ih =>
    simp only [List.foldlM_cons, bind_eq_error_iff, map_eq_error_iff, rule_eq_error_iff,
      map_eq_ok_iff, rule_eq_ok_iff, ih]
    by_cases hname : name ∈ config.rules.keys
    · have hsome : ∃ rule, config.rules.find? name = some rule := by
        rw [← Option.isSome_iff_exists, Option.isSome_iff_ne_none]
        exact fun hnone => Table.find?_eq_none_iff.1 hnone hname
      obtain ⟨rule, hrule⟩ := hsome
      simp [hname, hrule]
    · have hnone := Table.find?_eq_none_iff.2 hname
      simp [hname, hnone]

/-! ## The selection -/

/-- The selected rules are the ones asked for, as they are configured. -/
theorem of_selectRules (h : selectRules config names = .ok rules) :
    rules.keys = config.requested names ∧
      ∀ entry ∈ rules.entries, config.rules.find? entry.1 = some entry.2 := by
  obtain ⟨es, hnames, hes, rfl⟩ := foldlM_rule_eq_ok_iff.1 h
  refine ⟨?_, fun entry hentry => hes entry ?_⟩
  · rw [Table.keys_update, hnames, Config.requested]
    split
    · exact Table.eraseDups_of_nodup config.rules.nodup
    · rfl
  · exact Table.mem_of_find?_ofList (Table.find?_eq_some_iff.2 hentry)

/-- A selection is refused exactly for the first of the names that no rule has. -/
theorem selectRules_eq_error_iff :
    selectRules config names = .error e ↔
      ∃ name, names.find? (· ∉ config.rules.keys) = some name ∧
        e = .unknownRule name (sortTexts config.rules.keys) := by
  refine foldlM_rule_eq_error_iff.trans ?_
  split
  · next hempty =>
    -- all names are those of rules
    rw [List.isEmpty_iff] at hempty
    subst hempty
    have hall : config.rules.keys.find? (· ∉ config.rules.keys) = none :=
      List.find?_eq_none.2 fun name hname => by simpa using hname
    rw [hall]
    exact ⟨fun ⟨_, h, _⟩ => (nomatch h), fun ⟨_, h, _⟩ => (nomatch h)⟩
  · rfl

end Command.Surroundings

end Verdict
