import Verdict.Command.Run
import Verdict.Proofs.Attempt
/-!
# Configurations in memory

The arguments of a run are laid over what its configuration says, and the configuration stays as it
was loaded. Where tables are values there is nothing else they could do. Here they are cells of a
memory that can be written, a configuration knows the places of its tables, and the arguments are
written, one entry after the other, to copies. `layeredIn_of_layered` says that this finds the same
evaluator and that the configuration reads as before.
-/

namespace Verdict.Command

/-- Cells with a copy of a table behind them, to which entries have been written one by one. -/
def layOver {α : Type} (cells : List (Table α)) (base : Table α) (es : List (String × α)) :
    List (Table α) :=
  es.foldl (fun cells' e => cells'.modify cells.length fun t => t.insert e.1 e.2) (cells ++ [base])

section Cells

variable {α : Type} {cells : List (Table α)} {base : Table α} {es : List (String × α)}

/-- Writing to one cell is seen in this cell alone. -/
theorem getElem?_foldl_modify (place i : Nat) (cells : List (Table α)) (es : List (String × α)) :
    (es.foldl (fun cells' e => cells'.modify place fun t => t.insert e.1 e.2) cells)[i]? =
      if place = i then cells[i]?.map fun t => t.update es else cells[i]? := by
  -- each entry is written to the cells as the entries before it left them
  induction es generalizing cells with
  | nil => simp
  | cons e es ih =>
    rw [List.foldl_cons, ih, List.getElem?_modify]
    by_cases h : place = i
    · simp [h, Function.comp_def]
    · simp [h]

/-- The copy has the entries written over the table of which it is one. -/
theorem getElem?_layOver_length :
    (layOver cells base es)[cells.length]? = some (base.update es) := by
  rw [layOver, getElem?_foldl_modify, if_pos rfl]
  simp

/-- The other cells are as they were. -/
theorem getElem?_layOver {i : Nat} {t : Table α} (h : cells[i]? = some t) :
    (layOver cells base es)[i]? = some t := by
  have hi : i < cells.length := (List.getElem?_eq_some_iff.1 h).1
  rw [layOver, getElem?_foldl_modify, if_neg (Nat.ne_of_gt hi), List.getElem?_append_left hi, h]

end Cells

/-- Tables that can be written, by their places. -/
structure Memory where
  /-- Tables of context data. -/
  data : List (Table Value)
  /-- Tables of texts: settings and rules. -/
  texts : List (Table String)

/-- A configuration whose tables are in memory. -/
structure Stored where
  /-- The date. -/
  today : Option Date
  /-- The place of the context data. -/
  context : Nat
  /-- The place of the settings, if there are any. -/
  env : Option Nat
  /-- The place of the rules. -/
  rules : Nat

/-- Whether a configuration is what is found in memory at the places of a stored one. -/
structure Memory.Holds (m : Memory) (r : Stored) (config : Config) : Prop where
  /-- The date is the same. -/
  today : r.today = config.today
  /-- The context data are at their place. -/
  context : m.data[r.context]? = some config.context
  /-- The settings are at their place, if there are any. -/
  env : r.env = none ∧ config.env = none ∨
    ∃ i table, r.env = some i ∧ config.env = some table ∧ m.texts[i]? = some table
  /-- The rules are at their place. -/
  rules : m.texts[r.rules]? = some config.rules

/-- The settings of a stored configuration, if it has any. -/
def Memory.settings? (m : Memory) (r : Stored) : Option (Table String) :=
  r.env.bind fun i => m.texts[i]?

namespace Surroundings

/-- The stored configuration with the date and the settings of the arguments, which are written over
a copy of the settings. -/
def overrideIn (s : Surroundings) (m : Memory) (r : Stored) (date : Option (Option String))
    (settings : List (Option String)) : Except (Failure ConfigError) (Memory × Stored) := do
  let today ← dateOf r.today date
  if settings.isEmpty then return (m, { r with today })
  else
    let given ← allAssigned (settingAssignments "--env") settings
    let base := (m.settings? r).getD s.environment.table
    let texts := layOver m.texts base given.entries
    return ({ m with texts }, { r with today, env := some m.texts.length })

/-- The evaluator that a stored configuration makes with what the arguments add to it, which is
written over a copy of the context data. -/
def layeredIn (s : Surroundings) (m : Memory) (r : Stored) (data settings : List (Option String))
    (date : Option (Option String)) : Except (Failure ConfigError) (Memory × Evaluator) := do
  let (m, r) ← s.overrideIn m r date settings
  let extra ← allAssigned (contextAssignments s.reader "--set") data
  let cells := layOver m.data (m.data.getD r.context .empty) extra.entries
  return ({ m with data := cells },
    ⟨cells.getD m.data.length .empty, (Clock.ofDate? r.today).today s.today,
      (Settings.ofTable? (m.settings? r)).lookup s.environment⟩)

variable {s : Surroundings} {config : Config} {data settings : List (Option String)}
  {date : Option (Option String)} {E : Evaluator} {m : Memory} {r : Stored}

/-- What an evaluator over a configuration has. -/
theorem evaluator_eq (s : Surroundings) (config : Config) (extra : Table Value) :
    s.evaluator config extra =
      ⟨config.context.update extra.entries, (Clock.ofDate? config.today).today s.today,
        (Settings.ofTable? config.env).lookup s.environment⟩ := rfl

/-- The settings that are found in memory are those of the configuration. -/
theorem settings?_eq (h : m.Holds r config) : m.settings? r = config.env := by
  unfold Memory.settings?
  rcases h.env with ⟨hr, hc⟩ | ⟨i, table, hr, hc, htable⟩
  · rw [hr, hc, Option.bind_none]
  · rw [hr, hc, Option.bind_some, htable]

/-- A configuration is still found once settings have been laid over a copy. -/
theorem holds_layOver_texts (h : m.Holds r config) (base : Table String)
    (es : List (String × String)) :
    Memory.Holds { m with texts := layOver m.texts base es } r config where
  today := h.today
  context := h.context
  env := h.env.imp_right fun ⟨i, table, hr, hc, htable⟩ =>
    ⟨i, table, hr, hc, getElem?_layOver htable⟩
  rules := getElem?_layOver h.rules

/-- A configuration is still found once data have been laid over a copy. -/
theorem holds_layOver_data (h : m.Holds r config) (base : Table Value)
    (es : List (String × Value)) :
    Memory.Holds { m with data := layOver m.data base es } r config where
  today := h.today
  context := getElem?_layOver h.context
  env := h.env
  rules := h.rules

/-- Overriding a stored configuration finds in memory what overriding it as a value makes, and
leaves it as it was. -/
theorem overrideIn_of_override {overridden : Config} (hm : m.Holds r config)
    (h : s.override config date settings = .ok overridden) :
    ∃ m' r', s.overrideIn m r date settings = .ok (m', r') ∧ m'.Holds r' overridden ∧
      m'.Holds r config := by
  obtain ⟨today, htoday, h⟩ := bind_eq_ok_iff.1 h
  obtain ⟨env, henv, h⟩ := bind_eq_ok_iff.1 h
  cases h
  unfold overrideIn
  rw [hm.today, htoday]
  simp only [bind, Except.bind]
  unfold settingsOf at henv
  split at henv
  · next hempty =>
    cases henv
    rw [if_pos hempty]
    exact ⟨m, _, rfl, ⟨rfl, hm.context, hm.env, hm.rules⟩, hm⟩
  · next hempty =>
    -- the settings are in a new cell, which the old configuration does not know
    obtain ⟨given, hgiven, rfl⟩ := map_eq_ok_iff.1 henv
    rw [if_neg hempty, hgiven, settings?_eq hm]
    have hold := holds_layOver_texts hm (config.env.getD s.environment.table) given.entries
    refine ⟨_, _, rfl, ⟨rfl, hold.context, .inr ⟨_, _, rfl, rfl, ?_⟩, hold.rules⟩, hold⟩
    exact getElem?_layOver_length

/-- **The arguments leave the configuration alone.** In a memory that holds a configuration, the
evaluator that the arguments ask for is found by writing to copies, and the memory still holds the
configuration. -/
theorem layeredIn_of_layered (hm : m.Holds r config)
    (h : s.layered config data settings date = .ok E) :
    ∃ m', s.layeredIn m r data settings date = .ok (m', E) ∧ m'.Holds r config := by
  obtain ⟨overridden, hoverridden, h⟩ := bind_eq_ok_iff.1 h
  obtain ⟨extra, hextra, h⟩ := bind_eq_ok_iff.1 h
  cases h
  obtain ⟨m', r', hin, hnew, hold⟩ := overrideIn_of_override hm hoverridden
  -- the last cell is the copy, with the data of the arguments over those of the configuration
  have hdata : (layOver m'.data (m'.data.getD r'.context .empty) extra.entries).getD m'.data.length
      .empty = overridden.context.update extra.entries := by
    rw [List.getD_eq_getElem?_getD, List.getD_eq_getElem?_getD, hnew.context, Option.getD_some,
      getElem?_layOver_length, Option.getD_some]
  refine ⟨_, ?_, holds_layOver_data hold (m'.data.getD r'.context .empty) extra.entries⟩
  unfold layeredIn
  rw [hin, evaluator_eq, ← hnew.today, ← settings?_eq hnew, ← hdata]
  simp only [bind, Except.bind, hextra]
  rfl

end Surroundings

end Verdict.Command
