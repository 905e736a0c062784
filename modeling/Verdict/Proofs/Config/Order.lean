import Mathlib.Data.List.Forall2
import Mathlib.Data.List.Perm.Basic
import Verdict.Proofs.Config.Entries
import Verdict.Proofs.Config.Faults
/-!
# The order of entries

A diagnosis does not depend on the order of the entries of a document, nor on that of the entries
of its sections or of the mappings in them (`Value.Reordered`). The report is sorted by code, file
and field alone, and findings that agree in these come out as they went in; so it has to be said of
every place which findings it has, and in which order (`SamePlaces`). Findings of one place are of
one key, or of one section, or they are alike.

What does depend on the order is how a mapping is shown. What stands for the date is shown, and with
it the document if the date is or holds the document itself. So what stands for the date has to stay
as it is, and documents are left out in which it leads out of itself (`Value.LeadsOut`).
-/

namespace Verdict

/-! ## Lists up to order -/

/-- Where all entries are alike there is but one order. -/
theorem eq_of_perm_of_forall_eq {α : Type} {l l' : List α} (h : l.Perm l')
    (hl : ∀ a ∈ l, ∀ b ∈ l, a = b) : l = l' := by
  refine @List.Perm.eq_of_pairwise α (fun _ _ => True) l l' ?_ ?_ ?_ h
  · exact fun a b ha hb _ _ => hl a ha b (h.mem_iff.2 hb)
  · exact List.pairwise_of_forall fun _ _ => trivial
  · exact List.pairwise_of_forall fun _ _ => trivial

/-- The order of parts does not matter where there is but one that is not empty. -/
theorem flatten_eq_of_perm {α : Type} {ls ls' : List (List α)} (h : ls.Perm ls')
    (hone : ls.Pairwise fun a b => a = [] ∨ b = []) : ls.flatten = ls'.flatten := by
  induction h with
  | nil => rfl
  | cons l h ih => rw [List.flatten_cons, List.flatten_cons, ih hone.of_cons]
  | swap l l' ls =>
    rw [List.flatten_cons, List.flatten_cons, List.flatten_cons, List.flatten_cons]
    -- of two parts that change places one is empty
    rcases (List.pairwise_cons.1 hone).1 l List.mem_cons_self with rfl | rfl
    · simp
    · simp
  | trans h h' ih ih' => exact (ih hone).trans (ih' (hone.perm h fun hab => hab.symm))

/-- Texts are sorted in one way. -/
theorem sortTexts_eq_of_perm {texts texts' : List String} (h : texts.Perm texts') :
    sortTexts texts = sortTexts texts' := by
  refine mergeSort_eq_of_filter_eq fun s => ?_
  refine eq_of_perm_of_forall_eq (h.filter _) fun t ht t' ht' => ?_
  -- texts that are neither before nor after another are that text
  have hs {t : String} (ht : t ∈ texts.filter fun t => compare s t = .eq) : s = t :=
    Std.LawfulEqCmp.eq_of_compare (of_decide_eq_true (List.mem_filter.1 ht).2)
  rw [← hs ht, ← hs ht']

/-! ## Entries up to order -/

mutual

/-- Whether a value is another one with the entries of its mappings in any order, at any depth. -/
inductive Value.Reordered : Value → Value → Prop
  /-- A value is itself. -/
  | refl (v : Value) : Value.Reordered v v
  /-- The items of a list keep their places. -/
  | list {xs ys : List Value} (items : List.Forall₂ Value.Reordered xs ys) :
    Value.Reordered (.list xs) (.list ys)
  /-- The components of a tuple keep their places. -/
  | tuple {xs ys : List Value} (components : List.Forall₂ Value.Reordered xs ys) :
    Value.Reordered (.tuple xs) (.tuple ys)
  /-- The entries of a mapping may change places. -/
  | map {es middle es' : List (Value × Value)} (order : es.Perm middle)
    (entries : List.Forall₂ SameEntry middle es') : Value.Reordered (.map es) (.map es')

/-- Whether an entry has the key of another one, and its value with entries in any order. -/
inductive SameEntry : Value × Value → Value × Value → Prop
  /-- The key stays, the value is reordered. -/
  | mk (key : Value) {v w : Value} (value : Value.Reordered v w) : SameEntry (key, v) (key, w)

end

/-- Whether documents differ at most in the order of their entries and of those of the mappings in
them. -/
def Reordered (entries entries' : List (Value × Value)) : Prop :=
  ∃ middle, entries.Perm middle ∧ List.Forall₂ SameEntry middle entries'

theorem SameEntry.refl (e : Value × Value) : SameEntry e e := .mk e.1 (.refl e.2)

theorem SameEntry.key_eq {e e' : Value × Value} (h : SameEntry e e') : e.1 = e'.1 := by
  cases h
  rfl

namespace Reordered

variable {es es' entries entries' : List (Value × Value)}

theorem of_perm (h : es.Perm es') : Reordered es es' :=
  ⟨es', h, List.forall₂_same.2 fun e _ => .refl e⟩

theorem refl (es : List (Value × Value)) : Reordered es es := of_perm (List.Perm.refl es)

/-- What is the same for the entries of a section in any order is found in any order. -/
theorem map_perm {β : Type} {g : Value × Value → β} (hg : ∀ e e', SameEntry e e' → g e = g e')
    (h : Reordered es es') : (es.map g).Perm (es'.map g) := by
  obtain ⟨middle, hperm, hsame⟩ := h
  have hmap : middle.map g = es'.map g := by
    clear hperm
    induction hsame with
    | nil => rfl
    | cons he _ ih => rw [List.map_cons, List.map_cons, hg _ _ he, ih]
  rw [← hmap]
  exact hperm.map g

theorem keys_perm (h : Reordered es es') : (es.map Prod.fst).Perm (es'.map Prod.fst) :=
  h.map_perm fun _ _ => SameEntry.key_eq

/-- Every entry stands in the other document with a value that is reordered. -/
theorem exists_of_mem {e : Value × Value} (h : Reordered es es') (mem : e ∈ es) :
    ∃ e' ∈ es', SameEntry e e' := by
  obtain ⟨middle, hperm, hsame⟩ := h
  rw [hperm.mem_iff] at mem
  clear hperm
  induction hsame with
  | nil => exact absurd mem List.not_mem_nil
  | @cons a b l l' he _ ih =>
    rcases List.mem_cons.1 mem with rfl | mem
    · exact ⟨b, List.mem_cons_self, he⟩
    · obtain ⟨e', he', hsame⟩ := ih mem
      exact ⟨e', List.mem_cons_of_mem b he', hsame⟩

end Reordered

/-! ## Sections -/

section Sections

variable {entries entries' : List (Value × Value)} {name : String}

theorem entry?_of_reordered (h : Reordered entries entries') (keyed : WellKeyed entries) {v : Value}
    (hv : Value.entry? name entries = some v) :
    ∃ v', Value.entry? name entries' = some v' ∧ v.Reordered v' := by
  obtain ⟨⟨k, v'⟩, hmem, ⟨_, value⟩⟩ := h.exists_of_mem ((entry?_eq_some_iff keyed.keys).1 hv)
  exact ⟨v', (entry?_eq_some_iff (h.keys_perm.nodup_iff.1 keyed.keys)).2 hmem, value⟩

theorem entry?_none_of_reordered (h : Reordered entries entries')
    (hnone : Value.entry? name entries = none) : Value.entry? name entries' = none := by
  rw [entry?_eq_none_iff] at hnone ⊢
  rwa [← h.keys_perm.mem_iff]

/-- What stands for a section is the same up to the order of entries. -/
theorem sectionValue_of_reordered (h : Reordered entries entries') (keyed : WellKeyed entries)
    (name : String) : (sectionValue entries name).Reordered (sectionValue entries' name) := by
  have hdocument : (Value.map entries).Reordered (.map entries') := by
    obtain ⟨middle, order, same⟩ := h
    exact .map order same
  unfold sectionValue
  cases hv : Value.entry? name entries with
  | none =>
    rw [entry?_none_of_reordered h hv]
    exact .refl _
  | some v =>
    obtain ⟨v', hv', hsame⟩ := entry?_of_reordered h keyed hv
    rw [hv']
    cases hsame with
    | list items => exact .list items
    | tuple components => exact .tuple components
    | map order same => exact .map order same
    | refl =>
      -- the document itself may stand for a section
      cases v with
      | enclosing up isMap => exact hdocument
      | _ => exact .refl _

theorem sectionEntries_of_reordered (h : Reordered entries entries') (keyed : WellKeyed entries)
    (name : String) : Reordered (sectionEntries entries name) (sectionEntries entries' name) := by
  have hvalue := sectionValue_of_reordered h keyed name
  unfold sectionEntries
  generalize sectionValue entries name = v at hvalue ⊢
  generalize sectionValue entries' name = v' at hvalue ⊢
  cases hvalue with
  | refl | list | tuple => exact .refl _
  | map order same => exact ⟨_, order, same⟩

/-- What stands for the date is seen as before if it stands in both documents and leads to neither.
-/
theorem date_of_reordered (h : Reordered entries entries') (keyed : WellKeyed entries)
    (date : ∀ v, (.text "today", v) ∈ entries → (.text "today", v) ∈ entries' ∧ ¬ v.LeadsOut 0) :
    sectionTaken entries "today" = sectionTaken entries' "today" := by
  cases hv : Value.entry? "today" entries with
  | none =>
    rw [sectionTaken, sectionTaken, hv, entry?_none_of_reordered h hv]
    rfl
  | some v =>
    obtain ⟨hmem, hinside⟩ := date v ((entry?_eq_some_iff keyed.keys).1 hv)
    have hv' := (entry?_eq_some_iff (h.keys_perm.nodup_iff.1 keyed.keys)).2 hmem
    rw [sectionTaken_eq hv hinside, sectionTaken_eq hv' hinside]

end Sections

/-! ## Findings by place -/

/-- Whether lists have the same findings for every code and field, in the same order. -/
def SamePlaces (fs fs' : List Finding) : Prop :=
  ∀ code field, fs.filter (fun f => f.code = code ∧ f.field = field) =
    fs'.filter fun f => f.code = code ∧ f.field = field

namespace SamePlaces

variable {fs fs' gs gs' : List Finding}

theorem refl (fs : List Finding) : SamePlaces fs fs := fun _ _ => rfl

theorem append (h : SamePlaces fs fs') (h' : SamePlaces gs gs') :
    SamePlaces (fs ++ gs) (fs' ++ gs') := by
  intro code field
  rw [List.filter_append, List.filter_append, h code field, h' code field]

/-- The order does not matter where findings of one place are alike. -/
theorem of_perm (h : fs.Perm fs') (hlike : ∀ f ∈ fs, ∀ g ∈ fs, f.field = g.field → f = g) :
    SamePlaces fs fs' := by
  intro code field
  refine eq_of_perm_of_forall_eq (h.filter _) fun f hf g hg => ?_
  obtain ⟨hf, hplace⟩ := List.mem_filter.1 hf
  obtain ⟨hg, hplace'⟩ := List.mem_filter.1 hg
  exact hlike f hf g hg ((of_decide_eq_true hplace).2.trans (of_decide_eq_true hplace').2.symm)

/-- The order of entries does not matter where the findings for an entry have its key for a field.
-/
theorem flatMap {es es' : List (Value × Value)} {findings : Value × Value → List Finding}
    {before : String} (h : Reordered es es') (keyed : (es.map Prod.fst).Nodup)
    (hsame : ∀ e e', SameEntry e e' → findings e = findings e')
    (hfield : ∀ e, ∀ f ∈ findings e, ∃ k, e.1 = .text k ∧ f.field = before ++ k) :
    SamePlaces (es.flatMap findings) (es'.flatMap findings) := by
  intro code field
  let place (f : Finding) : Bool := f.code = code ∧ f.field = field
  have hflatten (es : List (Value × Value)) : (es.flatMap findings).filter place =
      (es.map fun e => (findings e).filter place).flatten := by
    rw [List.filter_flatMap, List.flatMap_def]
  refine (hflatten es).trans (Eq.trans ?_ (hflatten es').symm)
  refine flatten_eq_of_perm (h.map_perm fun e e' he => by rw [hsame e e' he]) ?_
  -- two entries with findings for one place would have one key
  rw [List.pairwise_map]
  refine (List.pairwise_map.1 keyed).imp fun {e e'} hkeys => ?_
  by_contra hboth
  obtain ⟨he, he'⟩ := not_or.1 hboth
  have hkey {e : Value × Value} (he : (findings e).filter place ≠ []) :
      ∃ k, e.1 = .text k ∧ field = before ++ k := by
    obtain ⟨f, hf⟩ := List.exists_mem_of_ne_nil _ he
    obtain ⟨hf, hplace⟩ := List.mem_filter.1 hf
    obtain ⟨k, hk, hfk⟩ := hfield e f hf
    exact ⟨k, hk, (of_decide_eq_true hplace).2.symm.trans hfk⟩
  obtain ⟨k, hk, hfk⟩ := hkey he
  obtain ⟨k', hk', hfk'⟩ := hkey he'
  rw [hfk, String.append_right_inj] at hfk'
  exact hkeys (by rw [hk, hk', hfk'])

end SamePlaces

/-! ## Findings in any order of entries -/

section Parts

variable {es es' entries entries' : List (Value × Value)} {name : String} {fs : List Finding}

theorem SameEntry.settingFindings_eq {e e' : Value × Value} (h : SameEntry e e') :
    settingFindings e = settingFindings e' := by
  obtain ⟨key, value⟩ := h
  cases value with
  | refl => rfl
  | list | tuple | map => cases key <;> rfl

theorem SameEntry.ruleFindings_eq {e e' : Value × Value} (h : SameEntry e e') :
    ruleFindings e = ruleFindings e' := by
  obtain ⟨key, value⟩ := h
  cases value with
  | refl => rfl
  | list | tuple | map => cases key <;> rfl

/-- The field of a finding for a setting has the name of the setting. -/
theorem field_of_settingFindings {e : Value × Value} {f : Finding} (hf : f ∈ settingFindings e) :
    ∃ k, e.1 = .text k ∧ f.field = "env." ++ k := by
  unfold settingFindings at hf
  split at hf
  · next k v =>
    split at hf
    · exact absurd hf List.not_mem_nil
    · rw [List.mem_singleton.1 hf]
      exact ⟨k, rfl, rfl⟩
  · exact absurd hf List.not_mem_nil

/-- The field of a finding for a rule has the name of the rule. -/
theorem field_of_ruleFindings {e : Value × Value} {f : Finding} (hf : f ∈ ruleFindings e) :
    ∃ k, e.1 = .text k ∧ f.field = "rules." ++ k := by
  unfold ruleFindings at hf
  split at hf
  · next k v =>
    refine ⟨k, rfl, ?_⟩
    dsimp only at hf
    split at hf
    · split at hf
      · rw [List.mem_singleton.1 hf]
        rfl
      · obtain ⟨p, -, rfl⟩ := List.mem_map.1 hf
        rfl
    · rw [List.mem_singleton.1 hf]
      rfl
  · exact absurd hf List.not_mem_nil

/-- What is said of every key is said in any order. -/
theorem forall_key_of_reordered (P : Value → Prop) (h : Reordered es es') (hes : ∀ e ∈ es, P e.1) :
    ∀ e ∈ es', P e.1 := by
  intro e' he'
  have hkey : e'.1 ∈ es.map Prod.fst := h.keys_perm.mem_iff.2 (List.mem_map_of_mem he')
  obtain ⟨e, he, hsame⟩ := List.mem_map.1 hkey
  rw [← hsame]
  exact hes e he

/-- Keys of a section are reported at the same places in any order of entries. -/
theorem keyFindings_of_reordered (h : Reordered es es') (hfs : keyFindings name es = .ok fs) :
    ∃ fs', keyFindings name es' = .ok fs' ∧ SamePlaces fs fs' := by
  obtain ⟨hwritten, rfl⟩ := keyFindings_eq_ok_iff.1 hfs
  have hwritten' := forall_key_of_reordered
    (fun k => k.isString = false → k.toText = .ok k.said) h hwritten
  refine ⟨_, keyFindings_eq_ok_iff.2 ⟨hwritten', rfl⟩, ?_⟩
  have hkeys (es : List (Value × Value)) :
      ((es.filter fun e => !e.1.isString).map fun e => keyFinding name e.1.said) =
        ((es.map Prod.fst).filter fun k => !k.isString).map fun k => keyFinding name k.said := by
    rw [List.filter_map, List.map_map]
    rfl
  rw [hkeys es, hkeys es']
  refine .of_perm ((h.keys_perm.filter _).map _) fun f hf g hg hfield => ?_
  obtain ⟨k, -, rfl⟩ := List.mem_map.1 hf
  obtain ⟨k', -, rfl⟩ := List.mem_map.1 hg
  -- only the field has the key in it
  exact congrArg (fun field => Finding.mk "CFG005" field _ _) hfield

/-- A section is reported at the same places in any order of entries. -/
theorem sectionFindings_of_reordered (h : Reordered entries entries') (keyed : WellKeyed entries)
    (hfs : sectionFindings entries name = .ok fs) :
    ∃ fs', sectionFindings entries' name = .ok fs' ∧ SamePlaces fs fs' := by
  have hvalue := sectionValue_of_reordered h keyed name
  unfold sectionFindings at hfs ⊢
  generalize sectionValue entries name = v at hvalue hfs
  generalize sectionValue entries' name = v' at hvalue ⊢
  cases hvalue with
  | refl | list | tuple => exact ⟨fs, hfs, .refl fs⟩
  | map order same => exact keyFindings_of_reordered ⟨_, order, same⟩ hfs

theorem keyTexts_of_reordered {texts : List String} (h : Reordered es es')
    (htexts : keyTexts es = .ok texts) :
    ∃ texts', keyTexts es' = .ok texts' ∧ unknownKeys texts = unknownKeys texts' := by
  obtain ⟨hwritten, rfl⟩ := keyTexts_eq_ok_iff.1 htexts
  have hwritten' := forall_key_of_reordered (fun k => k.toText = .ok k.said) h hwritten
  refine ⟨_, keyTexts_eq_ok_iff.2 ⟨hwritten', rfl⟩, ?_⟩
  have hperm := h.map_perm (g := fun e => e.1.said) fun e e' he => by rw [he.key_eq]
  unfold unknownKeys
  rw [sortTexts_eq_of_perm hperm]

/-- What is found in a document is found at the same places if its entries are reordered. -/
theorem entryFindings_of_reordered (h : Reordered entries entries') (keyed : WellKeyed entries)
    (date : ∀ v, (.text "today", v) ∈ entries → (.text "today", v) ∈ entries' ∧ ¬ v.LeadsOut 0)
    (hfs : entryFindings entries = .ok fs) :
    ∃ fs', entryFindings entries' = .ok fs' ∧ SamePlaces fs fs' := by
  obtain ⟨texts, context, env, rules, today, htexts, hcontext, henv, hrules, htoday, rfl⟩ :=
    entryFindings_eq_ok_iff.1 hfs
  obtain ⟨texts', htexts', hunknown⟩ := keyTexts_of_reordered h htexts
  obtain ⟨context', hcontext', hscontext⟩ := sectionFindings_of_reordered h keyed hcontext
  obtain ⟨env', henv', hsenv⟩ := sectionFindings_of_reordered h keyed henv
  obtain ⟨rules', hrules', hsrules⟩ := sectionFindings_of_reordered h keyed hrules
  -- the date leads to nothing that is ordered otherwise, so it is shown as before
  have htoday' : dateFindings entries' = .ok today := by
    rw [← htoday]
    unfold dateFindings
    rw [date_of_reordered h keyed date]
  refine ⟨_, entryFindings_eq_ok_iff.2 ⟨texts', context', env', rules', today, htexts', hcontext',
    henv', hrules', htoday', rfl⟩, ?_⟩
  rw [← hunknown]
  have hsettings := SamePlaces.flatMap (sectionEntries_of_reordered h keyed "env")
    (keyed.sections (by decide)) (fun _ _ => SameEntry.settingFindings_eq)
    fun _ _ => field_of_settingFindings
  have hrule := SamePlaces.flatMap (sectionEntries_of_reordered h keyed "rules")
    (keyed.sections (by decide)) (fun _ _ => SameEntry.ruleFindings_eq)
    fun _ _ => field_of_ruleFindings
  exact ((((((SamePlaces.refl _).append hscontext).append hsenv).append hsrules).append
    hsettings).append (.refl today)).append hrule

theorem hasLongKey_of_reordered (h : Reordered es es') (long : HasLongKey es) : HasLongKey es' := by
  obtain ⟨e, he, long⟩ := long
  have hkey : e.1 ∈ es'.map Prod.fst := h.keys_perm.mem_iff.1 (List.mem_map_of_mem he)
  obtain ⟨e', he', hsame⟩ := List.mem_map.1 hkey
  exact ⟨e', he', hsame ▸ long⟩

/-- What cannot be written in a document cannot be written if its entries are reordered. -/
theorem unwritable_of_reordered (h : Reordered entries entries') (keyed : WellKeyed entries)
    (date : ∀ v, (.text "today", v) ∈ entries → (.text "today", v) ∈ entries' ∧ ¬ v.LeadsOut 0)
    (unwritable : Unwritable entries) : Unwritable entries' := by
  cases unwritable with
  | key long => exact .key (hasLongKey_of_reordered h long)
  | sectionKey mem long =>
    exact .sectionKey mem (hasLongKey_of_reordered (sectionEntries_of_reordered h keyed _) long)
  | date long =>
    rw [date_of_reordered h keyed date] at long
    exact .date long

end Parts

/-! ## Reports -/

/-- The report does not show in which order findings of different places were found. -/
theorem sort_of_samePlaces {fs fs' : List Finding} (h : SamePlaces fs fs') (path : String) :
    Diagnostic.sort (fs.map (Finding.diagnostic path)) =
      Diagnostic.sort (fs'.map (Finding.diagnostic path)) := by
  rw [Diagnostic.sort_eq, Diagnostic.sort_eq]
  refine mergeSort_eq_of_filter_eq fun d => ?_
  rw [List.filter_map, List.filter_map]
  refine congrArg (List.map _) ?_
  -- all diagnostics are of one file, so the order of two is that of their codes and fields
  by_cases hpath : d.path = path
  · have hplace : (fun e => decide (Diagnostic.order d e = .eq)) ∘ Finding.diagnostic path =
        fun f => decide (f.code = d.code ∧ f.field = d.field) := by
      funext f
      rw [Function.comp_apply, decide_eq_decide, Diagnostic.order_eq_iff]
      simp [Finding.diagnostic, hpath, eq_comm]
    rw [hplace]
    exact h d.code d.field
  · have hnone : (fun e => decide (Diagnostic.order d e = .eq)) ∘ Finding.diagnostic path =
        fun _ => false := by
      funext f
      rw [Function.comp_apply, decide_eq_false_iff_not, Diagnostic.order_eq_iff]
      exact fun h => hpath h.2.1
    rw [hnone, List.filter_false, List.filter_false]

section Files

variable {storage storage' : Storage} {root : Location} {named : Option Location}
  {entries entries' : List (Value × Value)}

/-- **The order of entries makes no difference.** Let two files hold documents that differ at most
in the order of their entries and of the entries of mappings in them, and let what stands for the
date be the same in both and not be the document itself, nor hold it at any depth. Then their
diagnoses end in the same fault, or in the same report: the same diagnostics in the same order, with
the same words and hints. -/
theorem diagnose_of_reordered
    (file : storage (configLocation root named) = .file (.ok (.map entries)))
    (file' : storage' (configLocation root named) = .file (.ok (.map entries')))
    (reordered : Reordered entries entries') (keyed : WellKeyed entries)
    (date : ∀ v, (.text "today", v) ∈ entries → (.text "today", v) ∈ entries' ∧ ¬ v.LeadsOut 0)
    (expected : Bool) :
    diagnose storage root named expected = diagnose storage' root named expected := by
  unfold diagnose
  simp only [file, file', documentFindings]
  cases hfs : entryFindings entries with
  | ok fs =>
    obtain ⟨fs', hfs', hplaces⟩ := entryFindings_of_reordered reordered keyed date hfs
    rw [hfs']
    exact congrArg Except.ok (sort_of_samePlaces hplaces _)
  | error f =>
    -- there is one fault in which a diagnosis of entries can end
    obtain ⟨rfl, unwritable⟩ := (entryFindings_failsOnly entries f).1 hfs
    rw [(entryFindings_failsOnly entries' _).2
      ⟨rfl, unwritable_of_reordered reordered keyed date unwritable⟩]

/-- Keys that say the same and a rule with two problems, in two orders. -/
theorem diagnose_of_reordered_equal_keys :
    let rules : List (Value × Value) := [(.text "b", .text "nope&&"), (.text "a", .null)]
    let entries : List (Value × Value) :=
      [(.int 1, .null), (.text "1", .null), (.text "rules", .map rules)]
    let entries' : List (Value × Value) :=
      [(.text "rules", .map rules.reverse), (.text "1", .null), (.int 1, .null)]
    diagnose (fun _ => .file (.ok (.map entries))) .top none true =
      diagnose (fun _ => .file (.ok (.map entries'))) .top none true := by
  intro rules entries entries'
  have reordered : Reordered entries entries' := by
    refine ⟨[(.text "rules", .map rules), (.text "1", .null), (.int 1, .null)],
      (List.reverse_perm _).symm, .cons (.mk _ ?_) ?_⟩
    · exact .map (List.reverse_perm rules).symm (List.forall₂_same.2 fun e _ => .refl e)
    · exact .cons (.refl _) (.cons (.refl _) .nil)
  have keyed : WellKeyed entries := by
    constructor
    · simp [entries]
    · intro name mem
      rcases mem_sectionKeys_iff.1 mem with rfl | rfl | rfl <;>
        simp [sectionEntries, sectionValue, entries, rules, Value.entry?, Value.isText]
  exact diagnose_of_reordered rfl rfl reordered keyed (by simp [entries]) true

theorem unknownKeys_foo_and_date {texts : List String} (h : texts.Perm ["foo", "today"]) :
    unknownKeys texts = ["foo"] := by
  have hsorted : sortTexts ["foo", "today"] = ["foo", "today"] :=
    List.mergeSort_of_pairwise (by decide)
  rw [unknownKeys, sortTexts_eq_of_perm h, hsorted]
  decide

/-- The report on a document that has a key `foo` and no date, and is in order otherwise. -/
theorem diagnose_foo_and_date {texts : List String} {message : String}
    (file : storage (configLocation .top none) = .file (.ok (.map entries)))
    (htexts : keyTexts entries = .ok texts) (hunknown : unknownKeys texts = ["foo"])
    (hsections : ∀ name ∈ sectionKeys, sectionValue entries name = .null)
    (hdate : dateFindings entries = .ok [⟨"CFG006", "today", message, ""⟩]) :
    diagnose storage .top none true = .ok
      [⟨"CFG004", "/criteria.yaml", "foo", "unknown key \x60foo\x60", ""⟩,
        ⟨"CFG006", "/criteria.yaml", "today", message, ""⟩] := by
  have hsection (name : String) (mem : name ∈ sectionKeys) :
      sectionFindings entries name = .ok [] ∧ sectionEntries entries name = [] := by
    rw [sectionFindings, sectionEntries, hsections name mem]
    exact ⟨rfl, rfl⟩
  have hfinding : unknownKeyFinding "foo" =
      ⟨"CFG004", "foo", "unknown key \x60foo\x60", ""⟩ := by decide +kernel
  have hfindings : documentFindings (.ok (.map entries)) = .ok _ :=
    entryFindings_eq_ok_iff.2 ⟨texts, [], [], [], _, htexts, (hsection "context" (by decide)).1,
      (hsection "env" (by decide)).1, (hsection "rules" (by decide)).1, hdate, rfl⟩
  rw [hunknown, (hsection "env" (by decide)).2, (hsection "rules" (by decide)).2] at hfindings
  refine (diagnose_of_file file).2 ⟨_, hfindings, ?_⟩
  rw [List.map_singleton, hfinding]
  exact List.mergeSort_of_pairwise (by simp [Diagnostic.le, Finding.diagnostic]; decide)

/-- A document that stands for its own date is shown, in the order that it has. -/
theorem diagnose_shows_order_of_self :
    let report (entries : List (Value × Value)) :=
      diagnose (fun _ => .file (.ok (.map entries))) .top none true
    let entries : List (Value × Value) :=
      [(.text "foo", .int 1), (.text "today", .enclosing 0 true)]
    entries.Perm entries.reverse ∧ WellKeyed entries ∧ ∃ ds ds', report entries = .ok ds ∧
      report entries.reverse = .ok ds' ∧ ds ≠ ds' := by
  intro report entries
  have hsections (name : String) (mem : name ∈ sectionKeys) : sectionValue entries name = .null ∧
      sectionValue entries.reverse name = .null := by
    rcases mem_sectionKeys_iff.1 mem with rfl | rfl | rfl <;> exact ⟨rfl, rfl⟩
  have keyed : WellKeyed entries := by
    refine ⟨by simp [entries], fun mem => ?_⟩
    rw [sectionEntries, (hsections _ mem).1]
    exact List.nodup_nil
  -- the document is shown for the date, in the order of its entries
  have hdate : dateFindings entries = .ok [⟨"CFG006", "today",
      "today must be an ISO date (YYYY-MM-DD), got \x7b'foo': 1, 'today': \x7b...\x7d\x7d",
      ""⟩] := by decide +kernel
  have hdate' : dateFindings entries.reverse = .ok [⟨"CFG006", "today",
      "today must be an ISO date (YYYY-MM-DD), got \x7b'today': \x7b...\x7d, 'foo': 1\x7d",
      ""⟩] := by decide +kernel
  have hentries : report entries = _ := diagnose_foo_and_date rfl rfl
    (unknownKeys_foo_and_date (.refl _)) (fun name mem => (hsections name mem).1) hdate
  have hreverse : report entries.reverse = _ := diagnose_foo_and_date rfl rfl
    (unknownKeys_foo_and_date (.swap _ _ _)) (fun name mem => (hsections name mem).2) hdate'
  exact ⟨(List.reverse_perm entries).symm, keyed, _, _, hentries, hreverse, by decide +kernel⟩

end Files

end Verdict
