import Verdict.Command.Run
import Verdict.Proofs.Attempt
/-!
# Assignments on the command line

The options that make assignments may be repeated. They are taken one after the other: the first one
that is no assignment, whose value cannot be read, or that has lost its value ends the reading, and
of several to one key the last one counts.
-/

namespace Verdict.Command

variable {α : Type} {flag : String} {read : String → Except Fault α}

/-- The keys and values that options assign, when all of them are assignments. -/
inductive Assigns (read : String → Except Fault α) :
    List (Option String) → List (String × α) → Prop
  | nil : Assigns read [] []
  | cons {item key raw : String} {v : α} {items : List (Option String)} {pairs : List (String × α)}
    (split : assignment? item = some (key, raw)) (value : read raw = .ok v)
    (rest : Assigns read items pairs) : Assigns read (some item :: items) ((key, v) :: pairs)

/-- The faults in which reading options ends, at the first one that is no assignment of a value. -/
inductive BreaksOff (read : String → Except Fault α) : List (Option String) → Fault → Prop
  /-- The first option has no value. -/
  | missing (items : List (Option String)) : BreaksOff read (none :: items) .missingAssignment
  /-- The value of the first option cannot be read. -/
  | value {item key raw : String} {f : Fault} {items : List (Option String)}
    (split : assignment? item = some (key, raw)) (fault : read raw = .error f) :
    BreaksOff read (some item :: items) f
  /-- The first option is in order and a later one is not. -/
  | later {item key raw : String} {v : α} {f : Fault} {items : List (Option String)}
    (split : assignment? item = some (key, raw)) (value : read raw = .ok v)
    (rest : BreaksOff read items f) : BreaksOff read (some item :: items) f

/-- The text of a setting, which counts as it is given. -/
abbrev asGiven (raw : String) : Except Fault String := .ok raw

/-- Options that make assignments, in order, to be added to a table. -/
abbrev allAdded (flag : String) (read : String → Except Fault α) (items : List (Option String))
    (t : Table α) : Except (Failure ConfigError) (Table α) :=
  allAssigned (fun texts => addAssignments flag read texts t) items

theorem allAdded_nil (t : Table α) : allAdded flag read [] t = .ok t := rfl

theorem allAdded_none (items : List (Option String)) (t : Table α) :
    allAdded flag read (none :: items) t = .error (.fault .missingAssignment) := rfl

/-- One assignment after the other is added. -/
theorem allAdded_some (item : String) (items : List (Option String)) (t : Table α) :
    allAdded flag read (some item :: items) t =
      match assignment? item with
      | none => .error (.declared (.notAssignment flag item))
      | some (key, raw) =>
        match read raw with
        | .error f => .error (.fault f)
        | .ok v => allAdded flag read items (t.insert key v) := by
  unfold allAdded allAssigned
  simp only [List.takeWhile_cons, Option.isSome_some, if_true, List.filterMap_cons, id,
    addAssignments, List.all_cons, Bool.true_and]
  cases assignment? item with
  | none => rfl
  | some assignment =>
    dsimp only
    cases read assignment.2 <;> rfl

/-- Options make a table exactly if all of them are assignments, and it is the one that these make.
-/
theorem allAdded_eq_ok_iff {items : List (Option String)} {t t' : Table α} :
    allAdded flag read items t = .ok t' ↔
      ∃ pairs, Assigns read items pairs ∧ t' = t.update pairs := by
  -- on the items, for any table: an added pair changes the table that the others are added to
  induction items generalizing t with
  | nil =>
    rw [allAdded_nil]
    constructor
    · rintro ⟨⟩
      exact ⟨[], .nil, rfl⟩
    · rintro ⟨_, ⟨⟩, rfl⟩
      rfl
  | cons item items ih =>
    cases item with
    | none =>
      rw [allAdded_none]
      exact ⟨nofun, nofun⟩
    | some item =>
      rw [allAdded_some]
      constructor
      · intro h
        split at h
        · cases h
        · next key raw split =>
          split at h
          · cases h
          · next v value =>
            obtain ⟨pairs, rest, rfl⟩ := ih.1 h
            exact ⟨(key, v) :: pairs, .cons split value rest, rfl⟩
      · rintro ⟨pairs, hpairs, rfl⟩
        cases hpairs with
        | cons split value rest =>
          simp only [split, value]
          exact ih.2 ⟨_, rest, rfl⟩

/-- Options end in a fault exactly if reading them breaks off in it. -/
theorem allAdded_eq_fault_iff {items : List (Option String)} {t : Table α} {f : Fault} :
    allAdded flag read items t = .error (.fault f) ↔ BreaksOff read items f := by
  -- a fault is that of the first item that does not become a pair, so the table is of no account
  induction items generalizing t with
  | nil =>
    rw [allAdded_nil]
    exact ⟨nofun, nofun⟩
  | cons item items ih =>
    cases item with
    | none =>
      rw [allAdded_none]
      constructor
      · rintro ⟨⟩
        exact .missing items
      · rintro ⟨⟩
        rfl
    | some item =>
      rw [allAdded_some]
      constructor
      · intro h
        split at h
        · cases h
        · next split =>
          split at h
          · next fault =>
            cases h
            exact .value split fault
          · next value => exact .later split value (ih.1 h)
      · rintro (_ | ⟨split, fault⟩ | ⟨split, value, rest⟩)
        · simp only [split, fault]
        · simp only [split, value]
          exact ih.2 rest

/-! ## The last assignment -/

/-- The text that the last of the options for a key assigns to it. -/
def lastAssigned? (items : List (Option String)) (key : String) : Option String :=
  ((items.filterMap fun item => item.bind assignment?).reverse.find? fun e => e.1 = key).map
    Prod.snd

/-- Later options win over the first one. -/
theorem lastAssigned?_cons {item key' raw : String} (split : assignment? item = some (key', raw))
    (items : List (Option String)) (key : String) :
    lastAssigned? (some item :: items) key =
      (lastAssigned? items key).or (if key' = key then some raw else none) := by
  unfold lastAssigned?
  simp only [List.filterMap_cons, Option.bind_some, split, List.reverse_cons, List.find?_append,
    Option.map_or]
  by_cases h : key' = key <;> simp [h]

/-- A table to which options are added has, under their keys, the values of the last ones, and under
any other key what it had. -/
theorem Assigns.find?_update {items : List (Option String)} {pairs : List (String × α)}
    (h : Assigns read items pairs) (t : Table α) (key : String) :
    match lastAssigned? items key with
    | some raw => ∃ v, read raw = .ok v ∧ (t.update pairs).find? key = some v
    | none => (t.update pairs).find? key = t.find? key := by
  induction h generalizing t with
  | nil => rfl
  | @cons item key' raw v items pairs split value rest ih =>
    have hrest := ih (t.insert key' v)
    rw [lastAssigned?_cons split, Table.update_cons]
    -- what the later options leave alone is what the first one assigns, or what the table had
    revert hrest
    cases lastAssigned? items key with
    | some raw' => exact id
    | none =>
      intro hrest
      dsimp only at hrest
      rw [Table.find?_insert] at hrest
      by_cases hkey : key' = key
      · subst hkey
        rw [if_pos rfl] at hrest
        rw [if_pos rfl]
        exact ⟨v, value, hrest⟩
      · rw [if_neg (Ne.symm hkey)] at hrest
        rw [if_neg hkey]
        exact hrest

section Added

variable {items : List (Option String)} {t : Table α} {key : String}

/-- The table that options make has what the last one for a key assigns. -/
theorem find?_of_given {raw : String} (h : allAdded flag read items .empty = .ok t)
    (given : lastAssigned? items key = some raw) :
    ∃ v, read raw = .ok v ∧ t.find? key = some v := by
  obtain ⟨pairs, hpairs, rfl⟩ := allAdded_eq_ok_iff.1 h
  have hfind := hpairs.find?_update .empty key
  rwa [given] at hfind

/-- The table that options make has nothing else. -/
theorem find?_of_absent (h : allAdded flag read items .empty = .ok t)
    (absent : lastAssigned? items key = none) : t.find? key = none := by
  obtain ⟨pairs, hpairs, rfl⟩ := allAdded_eq_ok_iff.1 h
  have hfind := hpairs.find?_update .empty key
  rwa [absent] at hfind

end Added

end Verdict.Command
