import Mathlib.Data.List.Nodup
import Verdict.Proofs.Config.Agreement
/-!
# Entries of a configuration

A diagnosis goes through the entries of a document, and through those of its sections, one by one.
Where it does not end in a fault, what it says of their keys is a list in the order of the entries
(`keyTexts_eq_ok_iff`, `keyFindings_eq_ok_iff`), and what stands under a key is the one entry with
that key, provided that no key comes twice (`WellKeyed`).
-/

namespace Verdict

/-- Whether no key comes twice, neither in the document nor in a section of it. A mapping as a
reader hands it over has each of its keys once. -/
structure WellKeyed (entries : List (Value × Value)) : Prop where
  /-- The keys of the document are distinct. -/
  keys : (entries.map Prod.fst).Nodup
  /-- The keys of each section are distinct. -/
  sections {name : String} (mem : name ∈ sectionKeys) :
    ((sectionEntries entries name).map Prod.fst).Nodup

theorem mem_sectionKeys_iff {name : String} :
    name ∈ sectionKeys ↔ name = "context" ∨ name = "env" ∨ name = "rules" := by
  simp [sectionKeys]

/-! ## Keys -/

/-- What a value says, if it can be written. -/
def Value.said (v : Value) : String :=
  match v.toText with
  | .ok said => said
  | .error _ => ""

theorem Value.said_of_toText {v : Value} {text : String} (h : v.toText = .ok text) :
    v.said = text := by
  rw [said, h]

/-- The finding for a key of a section that is no text. -/
def keyFinding (name shown : String) : Finding :=
  ⟨"CFG005", name ++ "." ++ shown, "invalid key type in " ++ Diagnostic.ticked name,
    "expected a string key"⟩

section Keys

variable {entries es : List (Value × Value)} {name : String} {v : Value}

/-- The keys of entries have texts exactly if all of them can be written, and then it is what they
say. -/
theorem keyTexts_eq_ok_iff {texts : List String} :
    keyTexts es = .ok texts ↔
      (∀ e ∈ es, e.1.toText = .ok e.1.said) ∧ texts = es.map fun e => e.1.said := by
  induction es generalizing texts with
  | nil =>
    rw [keyTexts, Except.ok.injEq, List.map_nil, eq_comm, iff_and_self]
    exact fun _ => List.forall_mem_nil _
  | cons e es ih =>
    obtain ⟨k, v⟩ := e
    simp only [keyTexts, bind_eq_ok_iff, ih, List.forall_mem_cons, List.map_cons]
    constructor
    · rintro ⟨text, htext, rest, ⟨hrest, rfl⟩, h⟩
      cases h
      rw [Value.said_of_toText htext]
      exact ⟨⟨htext, hrest⟩, rfl⟩
    · rintro ⟨⟨htext, hrest⟩, rfl⟩
      exact ⟨k.said, htext, _, ⟨hrest, rfl⟩, rfl⟩

/-- There are findings for keys exactly if those that are no texts can be written, one for each of
them. -/
theorem keyFindings_eq_ok_iff {fs : List Finding} :
    keyFindings name es = .ok fs ↔
      (∀ e ∈ es, e.1.isString = false → e.1.toText = .ok e.1.said) ∧
        fs = (es.filter fun e => !e.1.isString).map fun e => keyFinding name e.1.said := by
  induction es generalizing fs with
  | nil =>
    rw [keyFindings, Except.ok.injEq, List.filter_nil, List.map_nil, eq_comm, iff_and_self]
    exact fun _ => List.forall_mem_nil _
  | cons e es ih =>
    obtain ⟨k, v⟩ := e
    cases k with
    | text k =>
      -- a text is passed over, any other key is reported and so has to be written
      have hstring : (Value.text k).isString = true := rfl
      rw [keyFindings, ih, List.forall_mem_cons, List.filter_cons]
      simp only [hstring, Bool.true_eq_false, false_imp_iff, true_and, Bool.not_true,
        Bool.false_eq_true, if_false]
    | _ =>
      rw [keyFindings, List.forall_mem_cons, List.filter_cons]
      · simp only [Value.isString, Value.asText?, Option.isSome_none, Bool.not_false, if_true,
          true_imp_iff, List.map_cons, bind_eq_ok_iff, ih]
        constructor
        · rintro ⟨text, htext, rest, ⟨hrest, rfl⟩, h⟩
          cases h
          rw [Value.said_of_toText htext]
          exact ⟨⟨htext, hrest⟩, rfl⟩
        · rintro ⟨⟨htext, hrest⟩, rfl⟩
          exact ⟨_, htext, _, ⟨hrest, rfl⟩, rfl⟩
      · intro _ h
        cases h

/-! ## Values under keys -/

theorem Value.isText_iff {s : String} : v.isText s = true ↔ v = .text s := by
  cases v <;> simp [isText, eq_comm]

theorem entry?_eq_none_iff :
    Value.entry? name es = none ↔ .text name ∉ es.map Prod.fst := by
  unfold Value.entry?
  rw [Option.map_eq_none_iff, List.find?_eq_none, List.mem_map]
  constructor
  · rintro h ⟨e, he, hkey⟩
    exact h e he (Value.isText_iff.2 hkey)
  · intro h e he hkey
    exact h ⟨e, he, Value.isText_iff.1 hkey⟩

theorem mem_of_entry (h : Value.entry? name es = some v) : (.text name, v) ∈ es := by
  obtain ⟨e, hfind, rfl⟩ := Option.map_eq_some_iff.1 h
  have hkey : e.1 = .text name := Value.isText_iff.1 (by simpa using List.find?_some hfind)
  rw [← hkey]
  exact List.mem_of_find?_eq_some hfind

/-- What stands under a key is the value of the one entry with that key. -/
theorem entry?_eq_some_iff (h : (es.map Prod.fst).Nodup) :
    Value.entry? name es = some v ↔ (.text name, v) ∈ es := by
  refine ⟨mem_of_entry, fun hmem => ?_⟩
  cases hentry : Value.entry? name es with
  | none => exact absurd (List.mem_map.2 ⟨_, hmem, rfl⟩) (entry?_eq_none_iff.1 hentry)
  | some w =>
    -- the entry that is found and the given one have one key
    have hw := List.inj_on_of_nodup_map h (mem_of_entry hentry) hmem rfl
    rw [(Prod.mk.inj hw).2]

end Keys

end Verdict
