/-!
# Tables

A table maps texts to values and remembers the order in which its keys first came. Writing to a key
that is there keeps its place and changes its value; a new key goes to the end. Rules, context data
and environment settings are all tables, and the order of a report is the order of its table.
-/

namespace Verdict

/-- The entries after `key` has been given `value`: in place where the key stands, else at the end.
-/
def putEntry {α : Type} (key : String) (value : α) : List (String × α) → List (String × α)
  | [] => [(key, value)]
  | e :: es => if e.1 = key then (key, value) :: es else e :: putEntry key value es

/-- Writing to a key leaves the keys as they are, or adds it at the end. -/
theorem keys_putEntry {α : Type} (key : String) (value : α) (es : List (String × α)) :
    (putEntry key value es).map Prod.fst =
      if key ∈ es.map Prod.fst then es.map Prod.fst else es.map Prod.fst ++ [key] := by
  induction es with
  | nil => simp [putEntry]
  | cons e es ih =>
    by_cases h : e.1 = key
    · simp [putEntry, h]
    · have h' : key ≠ e.1 := fun hk => h hk.symm
      simp only [putEntry, if_neg h, List.map_cons, ih, List.mem_cons, h', false_or]
      split <;> simp

/-- A table: entries with distinct keys, in the order in which the keys first came. -/
structure Table (α : Type) where
  /-- The entries in order. -/
  entries : List (String × α)
  /-- No key stands twice. -/
  nodup : (entries.map Prod.fst).Nodup

namespace Table

variable {α : Type}

/-- The table without entries. -/
def empty : Table α := ⟨[], List.nodup_nil⟩

instance : Inhabited (Table α) := ⟨empty⟩

/-- The keys in order. -/
def keys (t : Table α) : List String := t.entries.map Prod.fst

/-- The values in the order of their keys. -/
def values (t : Table α) : List α := t.entries.map Prod.snd

/-- The number of entries. -/
def size (t : Table α) : Nat := t.entries.length

/-- The value of a key, if the key is there. -/
def find? (t : Table α) (key : String) : Option α :=
  (t.entries.find? fun e => e.1 = key).map Prod.snd

/-- The table after `key` has been given `value`. -/
def insert (t : Table α) (key : String) (value : α) : Table α where
  entries := putEntry key value t.entries
  nodup := by
    rw [keys_putEntry]
    split
    · exact t.nodup
    · next h =>
      refine List.nodup_append.2 ⟨t.nodup, by simp, ?_⟩
      intro a ha b hb
      rw [List.mem_singleton] at hb
      subst hb
      exact fun hab => h (hab ▸ ha)

/-- The table without a key. -/
def erase (t : Table α) (key : String) : Table α where
  entries := t.entries.filter fun e => e.1 ≠ key
  nodup := t.nodup.sublist (List.filter_sublist.map Prod.fst)

/-- The table after the given entries have been written to it one after the other. -/
def update (t : Table α) (es : List (String × α)) : Table α :=
  es.foldl (fun t e => t.insert e.1 e.2) t

/-- The table that the given entries make, the last value of a repeated key winning. -/
def ofList (es : List (String × α)) : Table α :=
  empty.update es

@[simp] theorem entries_empty : (empty : Table α).entries = [] := rfl

@[simp] theorem entries_insert (t : Table α) (key : String) (value : α) :
    (t.insert key value).entries = putEntry key value t.entries := rfl

@[simp] theorem find?_empty (key : String) : (empty : Table α).find? key = none := rfl

@[simp] theorem update_nil (t : Table α) : t.update [] = t := rfl

@[simp] theorem update_cons (t : Table α) (e : String × α) (es : List (String × α)) :
    t.update (e :: es) = (t.insert e.1 e.2).update es := rfl

theorem update_append (t : Table α) (es fs : List (String × α)) :
    t.update (es ++ fs) = (t.update es).update fs := by
  simp [update, List.foldl_append]

/-- Under the key that is written stands the new value, and under others what stood there. -/
theorem find?_putEntry (key k : String) (value : α) (es : List (String × α)) :
    ((putEntry key value es).find? fun e => e.1 = k).map Prod.snd =
      if k = key then some value else (es.find? fun e => e.1 = k).map Prod.snd := by
  induction es with
  | nil => by_cases h : key = k <;> simp [putEntry, h, eq_comm]
  | cons e es ih =>
    by_cases he : e.1 = key
    · by_cases h : key = k
      · simp [putEntry, he, h]
      · simp [putEntry, he, h, Ne.symm h]
    · by_cases h : e.1 = k
      · have hk : k ≠ key := fun hk => he (h ▸ hk)
        simp [putEntry, h, hk]
      · simp [putEntry, he, h, ih]

/-- What was written to a key is found under it, and every other key is as before. -/
theorem find?_insert (t : Table α) (key k : String) (value : α) :
    (t.insert key value).find? k = if k = key then some value else t.find? k :=
  find?_putEntry key k value t.entries

/-- Of several values written to a key the last one is found, and a key to which nothing was written
has the value it had. -/
theorem find?_update (t : Table α) (es : List (String × α)) (k : String) :
    (t.update es).find? k =
      ((es.reverse.find? fun e => e.1 = k).map Prod.snd).or (t.find? k) := by
  induction es generalizing t with
  | nil => simp
  | cons e es ih =>
    rw [update_cons, ih, find?_insert, List.reverse_cons, List.find?_append]
    by_cases h : k = e.1
    · cases es.reverse.find? fun e => e.1 = k <;> simp [h]
    · cases es.reverse.find? fun e => e.1 = k <;> simp [h, Ne.symm h]

/-- A table written over another one wins, and leaves what it does not have as it was. -/
theorem find?_update_entries (t u : Table α) (k : String) :
    (t.update u.entries).find? k = (u.find? k).or (t.find? k) := by
  -- an update takes the last entry of a key, and a table has only one
  have hreverse : ∀ es : List (String × α), (es.map Prod.fst).Nodup →
      (es.reverse.find? fun e => e.1 = k) = es.find? fun e => e.1 = k := by
    intro es hes
    induction es with
    | nil => rfl
    | cons e es ih =>
      obtain ⟨hnotMem, hes⟩ := List.nodup_cons.1 hes
      rw [List.reverse_cons, List.find?_append, ih hes]
      by_cases h : e.1 = k
      · -- no later entry has the key
        have hnone : (es.find? fun e => e.1 = k) = none := by
          rw [List.find?_eq_none]
          intro e' he'
          have hmem := List.mem_map_of_mem (f := Prod.fst) he'
          simp only [decide_eq_true_eq]
          rintro rfl
          exact hnotMem (h ▸ hmem)
        simp [h, hnone]
      · simp [h]
  rw [find?_update, hreverse _ u.nodup]
  rfl

theorem keys_insert (t : Table α) (key : String) (value : α) :
    (t.insert key value).keys = if key ∈ t.keys then t.keys else t.keys ++ [key] :=
  keys_putEntry key value t.entries

/-- Where no key comes twice there is none to be dropped. -/
theorem eraseDups_of_nodup {keys : List String} (h : keys.Nodup) : keys.eraseDups = keys := by
  induction keys with
  | nil => rfl
  | cons key keys ih =>
    obtain ⟨hnotMem, hkeys⟩ := List.nodup_cons.1 h
    have hfilter : keys.filter (fun k => !k == key) = keys := by
      rw [List.filter_eq_self]
      intro k hk
      simpa using fun heq : k = key => hnotMem (heq ▸ hk)
    rw [List.eraseDups_cons, hfilter, ih hkeys]

/-- The keys of a table and those that are written to it, each where it came first. -/
theorem keys_update (t : Table α) (es : List (String × α)) :
    (t.update es).keys = (t.keys ++ es.map Prod.fst).eraseDups := by
  induction es generalizing t with
  | nil =>
    rw [update_nil, List.map_nil, List.append_nil]
    exact (eraseDups_of_nodup t.nodup).symm
  | cons e es ih =>
    rw [update_cons, ih, keys_insert, List.map_cons]
    split
    · next hmem => simp [List.eraseDups_append, List.removeAll, hmem]
    · rw [List.append_assoc, List.singleton_append]

theorem keys_ofList (es : List (String × α)) :
    (ofList es).keys = (es.map Prod.fst).eraseDups :=
  keys_update empty es

/-- What is found under a key is the value of an entry, and no other entry has the key. -/
theorem find?_eq_some_iff {t : Table α} {key : String} {value : α} :
    t.find? key = some value ↔ (key, value) ∈ t.entries := by
  unfold find?
  have hnodup := t.nodup
  generalize t.entries = es at hnodup ⊢
  induction es with
  | nil => simp
  | cons e es ih =>
    obtain ⟨hnotMem, hes⟩ := List.nodup_cons.1 hnodup
    by_cases h : e.1 = key
    · have hrest : (key, value) ∉ es := by
        intro hmem
        exact hnotMem (h ▸ List.mem_map_of_mem (f := Prod.fst) hmem)
      obtain ⟨k, v⟩ := e
      cases h
      simp [hrest, eq_comm]
    · have hne : (key, value) ≠ e := by
        rintro rfl
        exact h rfl
      simp [h, hne, ih hes]

/-- A key that is found is one of the keys. -/
theorem find?_eq_none_iff {t : Table α} {key : String} : t.find? key = none ↔ key ∉ t.keys := by
  simp only [find?, keys, Option.map_eq_none_iff, List.find?_eq_none, decide_eq_true_eq,
    List.mem_map, not_exists, not_and]

/-- What is found in a table of entries is one of them. -/
theorem mem_of_find?_ofList {es : List (String × α)} {key : String} {value : α}
    (h : (ofList es).find? key = some value) : (key, value) ∈ es := by
  rw [ofList, find?_update, find?_empty, Option.or_none, Option.map_eq_some_iff] at h
  obtain ⟨e, he, rfl⟩ := h
  have hkey : e.1 = key := by simpa using List.find?_some he
  rw [← hkey]
  exact List.mem_reverse.1 (List.mem_of_find?_eq_some he)

end Table

end Verdict
