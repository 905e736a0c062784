import Verdict.Config.Load
/-!
# Sections as they stand and as they are seen

A section that is taken out of its document has the document put in where it leads out of itself.
Neither the kind of the section nor its keys change by that, so it is read as a section exactly when
the section in its place is; and a value that does not lead out of itself does not change at all.
-/

namespace Verdict

namespace Value

/-- Whether a value from below `depth` collections is, or holds, one from further outside. -/
inductive LeadsOut : Nat → Value → Prop
  /-- The value is one from further outside. -/
  | enclosing {depth up : Nat} (isMap : Bool) (outside : depth ≤ up) :
    LeadsOut depth (.enclosing up isMap)
  /-- An item leads out. -/
  | item {depth : Nat} {xs : List Value} {x : Value} (mem : x ∈ xs)
    (leads : LeadsOut (depth + 1) x) : LeadsOut depth (.list xs)
  /-- A component leads out. -/
  | component {depth : Nat} {xs : List Value} {x : Value} (mem : x ∈ xs)
    (leads : LeadsOut depth x) : LeadsOut depth (.tuple xs)
  /-- The value of an entry leads out. -/
  | entry {depth : Nat} {es : List (Value × Value)} {k v : Value} (mem : (k, v) ∈ es)
    (leads : LeadsOut (depth + 1) v) : LeadsOut depth (.map es)

section PuttingIn

variable {key : String} {entries : List (Value × Value)}

@[simp] theorem keys_marked (key : String) (up : Nat) (entries : List (Value × Value)) :
    (marked key up entries).map Prod.fst = entries.map Prod.fst := by
  rw [marked, List.map_map]
  refine List.map_congr_left fun e _ => ?_
  rw [Function.comp_apply]
  split <;> rfl

@[simp] theorem keys_putInEntries (key : String) (entries : List (Value × Value)) (depth : Nat)
    (es : List (Value × Value)) :
    (putInEntries key entries depth es).map Prod.fst = es.map Prod.fst := by
  induction es with
  | nil => rfl
  | cons e es ih => rw [putInEntries, List.map_cons, List.map_cons, ih]

mutual

/-- Nothing is put into a value that does not lead out. -/
theorem putIn_of_not_leadsOut {depth : Nat} {v : Value} (h : ¬ v.LeadsOut depth) :
    v.putIn key entries depth = v := by
  cases v with
  | enclosing up isMap =>
    have hinside : up < depth := Nat.lt_of_not_le fun outside => h (.enclosing isMap outside)
    rw [putIn, if_pos hinside]
  | list xs =>
    rw [putIn, putInAll_of_not_leadsOut fun x hx leads => h (.item hx leads)]
  | tuple xs =>
    rw [putIn, putInAll_of_not_leadsOut fun x hx leads => h (.component hx leads)]
  | map es =>
    rw [putIn, putInEntries_of_not_leadsOut fun k v hv leads => h (.entry hv leads)]
  | _ => rfl

/-- Nothing is put into a row of values none of which leads out. -/
theorem putInAll_of_not_leadsOut {depth : Nat} {xs : List Value}
    (h : ∀ x ∈ xs, ¬ x.LeadsOut depth) : putInAll key entries depth xs = xs := by
  cases xs with
  | nil => rfl
  | cons x xs =>
    obtain ⟨hx, hxs⟩ := List.forall_mem_cons.1 h
    rw [putInAll, putIn_of_not_leadsOut hx, putInAll_of_not_leadsOut hxs]

/-- Nothing is put into entries of which no value leads out. -/
theorem putInEntries_of_not_leadsOut {depth : Nat} {es : List (Value × Value)}
    (h : ∀ k v, (k, v) ∈ es → ¬ v.LeadsOut depth) : putInEntries key entries depth es = es := by
  cases es with
  | nil => rfl
  | cons e es =>
    obtain ⟨k, v⟩ := e
    rw [putInEntries, putIn_of_not_leadsOut (h k v List.mem_cons_self),
      putInEntries_of_not_leadsOut fun k' v' hv => h k' v' (List.mem_cons_of_mem _ hv)]

end

end PuttingIn

/-- Whether entries have texts for keys is a matter of the keys. -/
theorem isSome_textEntries?_of_keys {es es' : List (Value × Value)}
    (h : es.map Prod.fst = es'.map Prod.fst) :
    (textEntries? es).isSome = (textEntries? es').isSome := by
  induction es generalizing es' with
  | nil =>
    rw [List.map_nil, eq_comm, List.map_eq_nil_iff] at h
    rw [h]
  | cons e es ih =>
    cases es' with
    | nil => cases h
    | cons e' es' =>
      obtain ⟨k, v⟩ := e
      obtain ⟨k', v'⟩ := e'
      obtain ⟨hkey, hkeys⟩ := List.cons.inj h
      dsimp only at hkey
      subst hkey
      cases k with
      | text k => rw [textEntries?, textEntries?, Option.isSome_map, Option.isSome_map, ih hkeys]
      | _ => rfl

end Value

section Sections

variable {entries : List (Value × Value)} {name : String}

/-- What does not lead out is the same taken out of a document as in it. -/
theorem sectionTaken_eq {v : Value} (hv : Value.entry? name entries = some v)
    (h : ¬ v.LeadsOut 0) : sectionTaken entries name = v := by
  rw [sectionTaken, hv]
  exact Value.putIn_of_not_leadsOut h

/-- A section with texts for keys is read, and any other one is not. -/
theorem readSection_map_isOk_iff {es : List (Value × Value)} :
    (∃ members, readSection name (.map es) = .ok members) ↔
      (Value.textEntries? es).isSome = true := by
  unfold readSection
  dsimp only
  cases Value.textEntries? es <;> simp

/-- A section is read as it is seen exactly when it is read as it stands in the document. -/
theorem readSection_taken_isOk_iff :
    (∃ members, readSection name (sectionTaken entries name) = .ok members) ↔
      ∃ members, readSection name (sectionValue entries name) = .ok members := by
  unfold sectionTaken sectionValue
  cases hv : Value.entry? name entries with
  | none => rfl
  | some v =>
    cases v with
    | enclosing up isMap =>
      -- the document itself, with a mark for itself
      have htaken : Value.taken name entries (.enclosing up isMap) =
          .map (Value.marked name 0 entries) := by
        rw [Value.taken, Value.putIn, if_neg (Nat.not_lt_zero up)]
      rw [Option.map_some, Option.getD_some, htaken, readSection_map_isOk_iff,
        readSection_map_isOk_iff,
        Value.isSome_textEntries?_of_keys (Value.keys_marked name 0 entries)]
    | map es =>
      rw [Option.map_some, Option.getD_some, Value.taken, Value.putIn, readSection_map_isOk_iff,
        readSection_map_isOk_iff,
        Value.isSome_textEntries?_of_keys (Value.keys_putInEntries name entries 1 es)]
    | _ => rfl

end Sections

end Verdict
