import Verdict.Config.Assignment
import Verdict.Proofs.AttemptRow
import Verdict.Proofs.Text.Trimming
import Verdict.Yaml.Document
/-!
# Assignments in a row

An assignment is taken apart at its first equals sign (`Parts`), and a text without one, or with
nothing but blanks in front of it, is none (`keyless_or_keyed`). Assignments are read as
attempts in a row and the pairs that they make are written to a table one after the other
(`addAssignments_eq`). So the first text that is no assignment is the one that is refused, and what
is known of the table follows from what is known of writing to one: the keys stand where they came
first and have the values that came last.

A row of assignments can be cut anywhere, since writing pairs to a table is the same as writing to
it the table that they make (`update_ofList`).
-/

namespace Verdict

/-! ## Tables that are written to a table -/

namespace Table

variable {α : Type}

/-- A table is told by its keys in order and what is found under them. -/
theorem eq_of_find? {t u : Table α} (hkeys : t.keys = u.keys)
    (hfind : ∀ key, t.find? key = u.find? key) : t = u := by
  have hentries (t : Table α) :
      t.entries.map (fun e => (e.1, some e.2)) = t.keys.map fun key => (key, t.find? key) := by
    rw [keys, List.map_map]
    refine List.map_congr_left fun e he => ?_
    rw [Function.comp_apply, find?_eq_some_iff.2 he]
  have hinj : Function.Injective fun e : String × α => (e.1, some e.2) := by
    rintro ⟨key, value⟩ ⟨key', value'⟩ h
    cases h
    rfl
  have hsame : t.entries = u.entries := by
    refine List.map_injective_iff.2 hinj ?_
    rw [hentries t, hentries u, hkeys, funext hfind]
  obtain ⟨entries, _⟩ := t
  obtain ⟨entries', _⟩ := u
  cases hsame
  rfl

theorem eraseDups_concat (keys : List String) (key : String) :
    (keys ++ [key]).eraseDups =
      if key ∈ keys then keys.eraseDups else keys.eraseDups ++ [key] := by
  rw [List.eraseDups_append]
  split
  · next h => simp [List.removeAll, h]
  · next h => simp [List.removeAll, h, List.eraseDups_cons]

/-- What is written to a table before it is written over another one can be written after that. -/
theorem update_insert (t u : Table α) (key : String) (value : α) :
    t.update (u.insert key value).entries = (t.update u.entries).insert key value := by
  refine eq_of_find? ?_ fun k => ?_
  · rw [keys_update, keys_insert, keys_update]
    change (t.keys ++ (u.insert key value).keys).eraseDups =
      if key ∈ (t.keys ++ u.keys).eraseDups then (t.keys ++ u.keys).eraseDups
      else (t.keys ++ u.keys).eraseDups ++ [key]
    simp only [List.mem_eraseDups]
    rw [keys_insert]
    split
    · next h => rw [if_pos (List.mem_append_right _ h)]
    · rw [← List.append_assoc, eraseDups_concat]
  · rw [find?_update_entries, find?_insert, find?_insert, find?_update_entries]
    split <;> rfl

theorem update_update (t u : Table α) (es : List (String × α)) :
    t.update (u.update es).entries = (t.update u.entries).update es := by
  induction es generalizing u with
  | nil => rfl
  | cons e es ih => rw [update_cons, ih, update_insert, update_cons]

/-- Entries make the same of a table as the table that they make. -/
theorem update_ofList (t : Table α) (es : List (String × α)) :
    t.update (ofList es).entries = t.update es :=
  update_update t empty es

end Table

/-! ## One assignment -/

open Text

/-- A text and what stands in front of its first equals sign and behind it. -/
structure Parts (item front back : String) : Prop where
  /-- The parts make the text. -/
  joined : item = front ++ "=" ++ back
  /-- The equals sign is the first one. -/
  first : '=' ∉ front.toList

/-- Whether a text is no assignment: it has no equals sign, or nothing but blanks in front of the
first one. -/
def Keyless (item : String) : Prop :=
  '=' ∉ item.toList ∨ ∃ front back, Parts item front back ∧ isBlankText front = true

variable {item front back key raw : String}

namespace Parts

theorem toList (h : Parts item front back) : item.toList = front.toList ++ '=' :: back.toList := by
  rw [h.joined, String.toList_append, String.toList_append, List.append_assoc]
  rfl

/-- A text with an equals sign has parts. -/
theorem exists_of_mem (h : '=' ∈ item.toList) : ∃ front back, Parts item front back := by
  obtain ⟨front, back, hitem, hfirst⟩ := List.eq_append_cons_of_mem h
  refine ⟨String.ofList front, String.ofList back, ?_, by rwa [String.toList_ofList]⟩
  rw [← String.toList_inj, hitem]
  simp only [String.toList_append, String.toList_ofList, List.append_assoc]
  rfl

/-- An assignment is read from the parts of a text. -/
theorem assignment?_eq (h : Parts item front back) :
    assignment? item = if isBlankText front = true then none else some (trim front, back) := by
  have hfront : ∀ c ∈ front.toList, (decide (c ≠ '=')) = true := by
    intro c hc
    exact decide_eq_true fun heq => h.first (heq ▸ hc)
  have hbehind : ('=' :: back.toList).dropWhile (· ≠ '=') = '=' :: back.toList :=
    List.dropWhile_cons_of_neg (by simp)
  have hnothing : ('=' :: back.toList).takeWhile (· ≠ '=') = [] :=
    List.takeWhile_cons_of_neg (by simp)
  have hblank : (trimChars front.toList).isEmpty = true ↔ isBlankText front = true := by
    rw [List.isEmpty_iff, trimChars, trimWhere_eq_nil_iff, isBlankText, List.all_eq_true]
  rw [assignment?, h.toList, List.dropWhile_append_of_pos hfront, hbehind,
    List.takeWhile_append_of_pos hfront, hnothing, List.append_nil]
  simp only [hblank, trim, String.ofList_toList]

end Parts

theorem assignment?_of_notMem (h : '=' ∉ item.toList) : assignment? item = none := by
  have hnone : item.toList.dropWhile (· ≠ '=') = [] := by
    rw [List.dropWhile_eq_nil_iff]
    intro c hc
    exact decide_eq_true fun heq => h (heq ▸ hc)
  rw [assignment?, hnone]

theorem assignment?_of_keyless (h : Keyless item) : assignment? item = none := by
  rcases h with hmem | ⟨front, back, h, hblank⟩
  · exact assignment?_of_notMem hmem
  · rw [h.assignment?_eq, if_pos hblank]

/-- The parts of an assignment, where there is a key in front of the equals sign. -/
structure Keyed (item front back : String) : Prop extends Parts item front back where
  /-- There is a key. -/
  named : isBlankText front = false

theorem Keyed.assignment?_eq (h : Keyed item front back) :
    assignment? item = some (trim front, back) := by
  rw [h.toParts.assignment?_eq, h.named, if_neg Bool.false_ne_true]

theorem Keyed.eq_of_assignment? (h : Keyed item front back)
    (hitem : assignment? item = some (key, raw)) : trim front = key ∧ back = raw :=
  Prod.mk.inj (Option.some.inj (h.assignment?_eq.symm.trans hitem))

theorem Keyed.not_keyless (h : Keyed item front back) : ¬ Keyless item := by
  intro hkeyless
  have hnone := assignment?_of_keyless hkeyless
  rw [h.assignment?_eq] at hnone
  cases hnone

/-- A text is an assignment or it is none. -/
theorem keyless_or_keyed (item : String) : Keyless item ∨ ∃ front back, Keyed item front back := by
  by_cases hmem : '=' ∈ item.toList
  · obtain ⟨front, back, h⟩ := Parts.exists_of_mem hmem
    cases hblank : isBlankText front with
    | true => exact .inl (.inr ⟨front, back, h, hblank⟩)
    | false => exact .inr ⟨front, back, h, hblank⟩
  · exact .inl (.inl hmem)

/-! ## Assignments in a row -/

section Rows

variable {α : Type} {flag : String} {read : String → Except Fault α} {items : List String}

/-- The attempt to read one assignment. -/
def assigned (flag : String) (read : String → Except Fault α) (item : String) :
    Except (Failure ConfigError) (String × α) :=
  match assignment? item with
  | none => .error (.declared (.notAssignment flag item))
  | some (key, raw) => (orFault (read raw)).map fun v => (key, v)

theorem assigned_of_keyless (h : Keyless item) :
    assigned flag read item = .error (.declared (.notAssignment flag item)) := by
  rw [assigned, assignment?_of_keyless h]

theorem assigned_of_keyed (h : Keyed item front back) :
    assigned flag read item = (orFault (read back)).map fun v => (trim front, v) := by
  rw [assigned, h.assignment?_eq]

/-- One item assigns a pair exactly if it has a key and a value that can be read. -/
theorem assigned_eq_ok_iff {pair : String × α} :
    assigned flag read item = .ok pair ↔
      ∃ front back, Keyed item front back ∧ trim front = pair.1 ∧ read back = .ok pair.2 := by
  obtain ⟨key, v⟩ := pair
  constructor
  · intro hok
    rcases keyless_or_keyed item with h | ⟨front, back, h⟩
    · rw [assigned_of_keyless h] at hok
      cases hok
    · rw [assigned_of_keyed h, map_eq_ok_iff] at hok
      obtain ⟨v', hread, hpair⟩ := hok
      cases hpair
      exact ⟨front, back, h, rfl, orFault_eq_ok_iff.1 hread⟩
  · rintro ⟨front, back, h, rfl, hread⟩
    rw [assigned_of_keyed h, hread]
    rfl

/-- A text that is no assignment is refused, and in any other there may be a value that cannot be
read. -/
theorem assigned_eq_error_iff {e : Failure ConfigError} :
    assigned flag read item = .error e ↔
      Keyless item ∧ e = .declared (.notAssignment flag item) ∨
      ∃ front back f, Keyed item front back ∧ read back = .error f ∧ e = .fault f := by
  constructor
  · intro herror
    rcases keyless_or_keyed item with h | ⟨front, back, h⟩
    · rw [assigned_of_keyless h] at herror
      exact .inl ⟨h, (Except.error.inj herror).symm⟩
    · rw [assigned_of_keyed h, map_eq_error_iff] at herror
      cases e with
      | declared e => exact absurd herror orFault_ne_declared
      | fault f => exact .inr ⟨front, back, f, h, orFault_eq_fault_iff.1 herror, rfl⟩
  · rintro (⟨h, rfl⟩ | ⟨front, back, f, h, hread, rfl⟩)
    · exact assigned_of_keyless h
    · rw [assigned_of_keyed h, hread]
      rfl

/-- The pairs that assignments make are written to the table one after the other. -/
theorem addAssignments_eq (flag : String) (read : String → Except Fault α) (items : List String)
    (t : Table α) :
    addAssignments flag read items t = (items.mapM (assigned flag read)).map t.update := by
  induction items generalizing t with
  | nil => rfl
  | cons item items ih =>
    rw [addAssignments, List.mapM_cons, assigned]
    cases assignment? item with
    | none => rfl
    | some assignment =>
      obtain ⟨key, raw⟩ := assignment
      cases hread : read raw with
      | error f =>
        simp only [hread]
        rfl
      | ok v =>
        simp only [hread, ih]
        cases items.mapM (assigned flag read) <;> rfl

/-- Whether the value of a text can be read, if the text is an assignment. -/
def ReadsValue (read : String → Except Fault α) (item : String) : Prop :=
  ∀ front back, Keyed item front back → ∃ v, read back = .ok v

theorem readsValue_of_assignment? {v : α} (h : assignment? item = some (key, raw))
    (hv : read raw = .ok v) : ReadsValue read item := by
  intro front back hkeyed
  rw [(hkeyed.eq_of_assignment? h).2]
  exact ⟨v, hv⟩

/-- Where every value can be read, an item assigns something exactly if it is not without a key. -/
theorem exists_assigned_iff (hread : ReadsValue read item) :
    (∃ pair, assigned flag read item = .ok pair) ↔ ¬ Keyless item := by
  constructor
  · rintro ⟨pair, hpair⟩
    obtain ⟨front, back, h, -⟩ := assigned_eq_ok_iff.1 hpair
    exact h.not_keyless
  · intro hkeyed
    rcases keyless_or_keyed item with h | ⟨front, back, h⟩
    · exact absurd h hkeyed
    · obtain ⟨v, hv⟩ := hread front back h
      exact ⟨(trim front, v), assigned_eq_ok_iff.2 ⟨front, back, h, rfl, hv⟩⟩

/-- Where its value can be read, a text fails only for not being an assignment. -/
theorem assigned_eq_error_iff_keyless {e : Failure ConfigError} (hread : ReadsValue read item) :
    assigned flag read item = .error e ↔
      Keyless item ∧ e = .declared (.notAssignment flag item) := by
  rw [assigned_eq_error_iff]
  refine or_iff_left ?_
  rintro ⟨front, back, f, h, hfault, -⟩
  obtain ⟨v, hv⟩ := hread front back h
  rw [hfault] at hv
  cases hv

/-- The pairs that texts make are read from the parts of the texts. -/
theorem exists_parts_of_assigned {pairs : List (String × α)}
    (h : List.Forall₂ (fun item pair => assigned flag read item = .ok pair) items pairs) :
    ∃ parts : List (String × String),
      List.Forall₂ (fun item p => Keyed item p.1 p.2) items parts ∧
      List.Forall₂ (fun p pair => trim p.1 = pair.1 ∧ read p.2 = .ok pair.2) parts pairs := by
  induction h with
  | nil => exact ⟨[], .nil, .nil⟩
  | cons hitem _ ih =>
    obtain ⟨front, back, hkeyed, hkey, hread⟩ := assigned_eq_ok_iff.1 hitem
    obtain ⟨parts, hparts, hpairs⟩ := ih
    exact ⟨(front, back) :: parts, .cons hkeyed hparts, .cons ⟨hkey, hread⟩ hpairs⟩

/-- The keys of the pairs are the trimmed texts in front of the equals signs. -/
theorem keys_of_parts {parts : List (String × String)} {pairs : List (String × α)}
    (h : List.Forall₂ (fun p pair => trim p.1 = pair.1 ∧ read p.2 = .ok pair.2) parts pairs) :
    pairs.map Prod.fst = parts.map fun p => trim p.1 := by
  induction h with
  | nil => rfl
  | cons hfirst _ ih => rw [List.map_cons, List.map_cons, ih, hfirst.1]

/-- The first of the pairs with a key is read from the first parts with this key. -/
theorem find?_of_parts {parts : List (String × String)} {pairs : List (String × α)}
    (h : List.Forall₂ (fun p pair => trim p.1 = pair.1 ∧ read p.2 = .ok pair.2) parts pairs)
    (key : String) (v : α) :
    (pairs.find? fun e => e.1 = key).map Prod.snd = some v ↔
      ∃ p, (parts.find? fun p => trim p.1 = key) = some p ∧ read p.2 = .ok v := by
  induction h with
  | nil => simp
  | @cons p pair _ _ hfirst _ ih =>
    obtain ⟨hkey, hread⟩ := hfirst
    rw [List.find?_cons, List.find?_cons, hkey]
    by_cases heq : pair.1 = key
    · simp [heq, hread]
    · simpa [heq] using ih

/-- What becomes of assignments in a row. -/
structure LastWins (flag : String) (read : String → Except Fault α) (items : List String)
    (result : Except (Failure ConfigError) (Table α)) : Prop where
  /-- The first text that is no assignment is refused, and nothing else is. -/
  refused (e : Failure ConfigError) : result = .error e ↔
    ∃ before item after, items = before ++ item :: after ∧
      (∀ earlier ∈ before, ¬ Keyless earlier) ∧ Keyless item ∧
      e = .declared (.notAssignment flag item)
  /-- There is a failure exactly if some text is no assignment. -/
  fails : (∃ e, result = .error e) ↔ ∃ item ∈ items, Keyless item
  /-- Without one the keys stand where they came first, and have the values that came last. -/
  made (keyed : ∀ item ∈ items, ¬ Keyless item) : ∃ t, result = .ok t ∧
    ∃ parts : List (String × String),
      List.Forall₂ (fun item p => Keyed item p.1 p.2) items parts ∧
      t.keys = (parts.map fun p => trim p.1).eraseDups ∧
      ∀ key v, t.find? key = some v ↔
        ∃ p, (parts.reverse.find? fun p => trim p.1 = key) = some p ∧ read p.2 = .ok v

/-- Assignments whose values can be read make a table in which the last one of a key wins. -/
theorem lastWins_addAssignments (hread : ∀ item ∈ items, ReadsValue read item) :
    LastWins flag read items (addAssignments flag read items .empty) := by
  have hfails : (∃ e, items.mapM (assigned flag read) = .error e) ↔
      ∃ item ∈ items, Keyless item := by
    rw [mapM_isError_iff]
    refine exists_congr fun item => and_congr_right fun hitem => ?_
    simp only [assigned_eq_error_iff_keyless (hread item hitem), exists_and_left, exists_eq,
      and_true]
  -- adding one by one is reading all and then building the table, so this is about a row
  rw [addAssignments_eq]
  refine ⟨fun e => ?_, ?_, fun hkeyed => ?_⟩
  · rw [map_eq_error_iff, mapM_eq_error_iff]
    constructor
    · rintro ⟨before, item, after, rfl, hbefore, hitem⟩
      refine ⟨before, item, after, rfl, fun earlier h => ?_, ?_⟩
      · exact (exists_assigned_iff (hread earlier (List.mem_append_left _ h))).1 (hbefore earlier h)
      · exact (assigned_eq_error_iff_keyless (hread item (by simp))).1 hitem
    · rintro ⟨before, item, after, rfl, hbefore, hitem⟩
      refine ⟨before, item, after, rfl, fun earlier h => ?_, ?_⟩
      · exact (exists_assigned_iff (hread earlier (List.mem_append_left _ h))).2 (hbefore earlier h)
      · exact (assigned_eq_error_iff_keyless (hread item (by simp))).2 hitem
  · simp only [map_eq_error_iff, hfails]
  · cases hpairs : items.mapM (assigned flag read) with
    | error e =>
      obtain ⟨item, hitem, hkeyless⟩ := hfails.1 ⟨e, hpairs⟩
      exact absurd hkeyless (hkeyed item hitem)
    | ok pairs =>
      obtain ⟨parts, hparts, hvalues⟩ := exists_parts_of_assigned (mapM_eq_ok_iff.1 hpairs)
      refine ⟨.ofList pairs, rfl, parts, hparts, ?_, fun key v => ?_⟩
      · rw [Table.keys_ofList, keys_of_parts hvalues]
      · rw [Table.ofList, Table.find?_update, Table.find?_empty, Option.or_none]
        exact find?_of_parts (List.forall₂_reverse_iff.2 hvalues) key v

/-- Assignments in two rows make the table of the first row with that of the second written over
it, or end as the first of the rows that ends in a failure. -/
theorem addAssignments_append (flag : String) (read : String → Except Fault α)
    (items items' : List String) :
    addAssignments flag read (items ++ items') .empty = (do
      let t ← addAssignments flag read items .empty
      let u ← addAssignments flag read items' .empty
      .ok (t.update u.entries)) := by
  simp only [addAssignments_eq, List.mapM_append]
  cases items.mapM (assigned flag read) with
  | error e => rfl
  | ok pairs =>
    cases items'.mapM (assigned flag read) with
    | error e => rfl
    | ok pairs' =>
      refine congrArg Except.ok ?_
      change Table.empty.update (pairs ++ pairs') =
        (Table.empty.update pairs).update (Table.ofList pairs').entries
      rw [Table.update_append, Table.update_ofList]

end Rows

/-- **The last assignment to a key wins.** Settings are made from texts in a row, and context data
where the values can be read. Each text is taken apart at its first equals sign, and the text in
front of it is trimmed. The first text without an equals sign, or with nothing but blanks in front
of the first one, is named in an error, and there is no other failure. Otherwise the keys are in the
order in which each came first, and each has the value of the last text with this key: all that
stands behind the equals sign, as it is for a setting and as it is read for context data. Texts in
two rows make the table of the first row, with that of the second written over it. All of it holds
for every reader of the values. -/
theorem last_assignment_wins (reader : Reader) (flag : String) (items : List String) :
    LastWins flag .ok items (settingAssignments flag items) ∧
    ((∀ item ∈ items, ReadsValue (contextValue reader) item) →
      LastWins flag (contextValue reader) items (contextAssignments reader flag items)) ∧
    ∀ items', settingAssignments flag (items ++ items') = (do
        let t ← settingAssignments flag items
        let u ← settingAssignments flag items'
        .ok (t.update u.entries)) ∧
      contextAssignments reader flag (items ++ items') = (do
        let t ← contextAssignments reader flag items
        let u ← contextAssignments reader flag items'
        .ok (t.update u.entries)) := by
  refine ⟨lastWins_addAssignments ?_, lastWins_addAssignments, fun items' => ?_⟩
  · exact fun _ _ _ back _ => ⟨back, rfl⟩
  · exact ⟨addAssignments_append flag .ok items items',
      addAssignments_append flag (contextValue reader) items items'⟩

/-- Blanks make no other key, an equals sign in a value counts for nothing, and a text with a blank
key is refused before one without an equals sign. -/
theorem last_assignment_wins_of_blank :
    (∃ t v, contextAssignments Yaml.reader "--set" ["plan=pro", "seats=10", " plan =a=b"] = .ok t ∧
      t.keys = ["plan", "seats"] ∧ t.find? "plan" = some v ∧ v.asText? = some "a=b") ∧
    settingAssignments "--env" ["seats=10", " =12", "plan"] =
      .error (.declared (.notAssignment "--env" " =12")) := by
  have hpro : (contextValue Yaml.reader "pro").map Value.asText? = .ok (some "pro") := by
    decide +kernel
  have h10 : (contextValue Yaml.reader "10").map Value.asText? = .ok none := by decide +kernel
  have hab : (contextValue Yaml.reader "a=b").map Value.asText? = .ok (some "a=b") := by
    decide +kernel
  obtain ⟨pro, hpro, -⟩ := map_eq_ok_iff.1 hpro
  obtain ⟨ten, h10, -⟩ := map_eq_ok_iff.1 h10
  obtain ⟨v, hab, htext⟩ := map_eq_ok_iff.1 hab
  have hplan : assignment? "plan=pro" = some ("plan", "pro") := by decide
  have hseats : assignment? "seats=10" = some ("seats", "10") := by decide
  have hagain : assignment? " plan =a=b" = some ("plan", "a=b") := by decide
  constructor
  · obtain ⟨-, hcontext, -⟩ :=
      last_assignment_wins Yaml.reader "--set" ["plan=pro", "seats=10", " plan =a=b"]
    have hread : ∀ item ∈ ["plan=pro", "seats=10", " plan =a=b"],
        ReadsValue (contextValue Yaml.reader) item :=
      List.forall_mem_cons.2 ⟨readsValue_of_assignment? hplan hpro, List.forall_mem_cons.2
        ⟨readsValue_of_assignment? hseats h10, List.forall_mem_singleton.2
          (readsValue_of_assignment? hagain hab)⟩⟩
    have hkeyed : ∀ item ∈ ["plan=pro", "seats=10", " plan =a=b"], ¬ Keyless item := by
      intro item hitem hkeyless
      have hsome : ∀ item ∈ ["plan=pro", "seats=10", " plan =a=b"],
          (assignment? item).isSome = true := by decide
      have hnone := hsome item hitem
      rw [assignment?_of_keyless hkeyless] at hnone
      cases hnone
    obtain ⟨t, ht, parts, hparts, hkeys, hfind⟩ := (hcontext hread).made hkeyed
    -- three items make three parts, and the last of them has the key of the first
    obtain ⟨p₁, _, h₁, hrest, rfl⟩ := List.forall₂_cons_left_iff.1 hparts
    obtain ⟨p₂, _, h₂, hlast, rfl⟩ := List.forall₂_cons_left_iff.1 hrest
    obtain ⟨p₃, _, h₃, hnil, rfl⟩ := List.forall₂_cons_left_iff.1 hlast
    cases List.forall₂_nil_left_iff.1 hnil
    obtain ⟨hkey₁, -⟩ := h₁.eq_of_assignment? hplan
    obtain ⟨hkey₂, -⟩ := h₂.eq_of_assignment? hseats
    obtain ⟨hkey₃, hraw₃⟩ := h₃.eq_of_assignment? hagain
    refine ⟨t, v, ht, ?_, (hfind "plan" v).2 ⟨p₃, ?_, ?_⟩, htext⟩
    · rw [hkeys, List.map_cons, List.map_cons, List.map_cons, List.map_nil, hkey₁, hkey₂, hkey₃]
      decide
    · exact List.find?_cons_of_pos (decide_eq_true hkey₃)
    · rw [hraw₃, hab]
  · refine ((last_assignment_wins Yaml.reader "--env" _).1.refused _).2
      ⟨["seats=10"], " =12", ["plan"], rfl, List.forall_mem_singleton.2 ?_, .inr ?_, rfl⟩
    · intro hkeyless
      have hnone := assignment?_of_keyless hkeyless
      rw [hseats] at hnone
      cases hnone
    · exact ⟨" ", "12", ⟨by decide, by decide⟩, by decide⟩

end Verdict
