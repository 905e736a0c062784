import Verdict.Proofs.Config.Preflight
import Verdict.Proofs.Config.Settings
import Verdict.Proofs.Config.Suggestion
import Verdict.Proofs.Text.Shown
/-!
# Lines of diagnostics

A diagnostic is meant to be one line, but some texts stand in it as they are: the path, the words
with which the reader refuses the document, a key that is a text, and an operand of a rule in which
lint finds no name (`Repeats`). A line feed in one of these breaks the line, and nothing else does:
what is shown is quoted, and a name that lint finds unknown is one in form. Printed diagnostics have
as many lines as there are diagnostics, and one more for every line feed in them.
-/

namespace Verdict

/-! ## Parts of a line -/

namespace Diagnostic

variable {d : Diagnostic} {ds : List Diagnostic}

theorem oneLine_ticked_iff {name : String} : OneLine (ticked name) ↔ OneLine name := by
  have htick : OneLine "\x60" := by decide
  simp [ticked, htick]

/-- A diagnostic is one line exactly if its parts are. -/
theorem oneLine_line_iff : OneLine d.line ↔
    OneLine d.code ∧ OneLine d.path ∧ OneLine d.field ∧ OneLine d.message ∧ OneLine d.hint := by
  have hempty : OneLine "" := by decide
  have hmarks : OneLine "[" ∧ OneLine "] " ∧ OneLine " " ∧ OneLine ":" ∧ OneLine " (" ∧
      OneLine ")" := by decide
  have hlocation : OneLine d.location ↔ OneLine d.path ∧ OneLine d.field := by
    rw [location]
    split
    · next hfield => simp [hfield, hempty]
    · simp [hmarks]
  have hhint : OneLine (if d.hint = "" then "" else " (" ++ d.hint ++ ")") ↔ OneLine d.hint := by
    split
    · next hnone => simp [hnone]
    · simp [hmarks]
  simp only [line, oneLine_append_iff, hlocation, hhint, hmarks, true_and, and_true, and_assoc]

/-- Diagnostics are printed on one line each, and one more for each line feed in them. -/
theorem length_splitOn_format (h : ds ≠ []) : ((format ds).toList.splitOn '\n').length =
    ds.length + (ds.map fun d => lineFeeds d.line).sum := by
  have hperm := sort_perm ds
  have hne : (sort ds).map line ≠ [] := by simpa using h
  rw [format, length_splitOn_intercalate hne, List.length_map, hperm.length_eq, List.map_map]
  exact congrArg (ds.length + ·) (hperm.map _).sum_eq

end Diagnostic

/-! ## What lint says -/

theorem oneLine_of_isWellFormedName {name : String} (h : isWellFormedName name = true) :
    OneLine name := by
  intro hfeed
  rw [isWellFormedName, Bool.and_eq_true, List.all_eq_true] at h
  exact absurd (h.2 _ hfeed) (by decide)

/-- A name is reported as unknown only if it is one in form. -/
theorem isWellFormedName_of_mem_lint {rule name : String} (h : .unknownName name ∈ lint rule) :
    isWellFormedName name = true := by
  have hoperand {operand : String} (h : .unknownName name ∈ lintOperand operand) :
      isWellFormedName name = true := by
    unfold lintOperand at h
    dsimp only at h
    split at h
    · simp at h
    · next hform =>
      split at h
      · exact absurd h List.not_mem_nil
      · cases List.mem_singleton.1 h
        simpa using hform
  unfold lint at h
  split at h
  · exact hoperand h
  · split at h
    · simp at h
    · exact (List.mem_append.1 h).elim hoperand hoperand

/-- What lint says is one line but for an operand that is shown as it stands. -/
theorem oneLine_message {rule : String} {p : RuleProblem} (h : p ∈ lint rule)
    (hoperand : ∀ operand, p = .malformedName operand → OneLine operand) : OneLine p.message := by
  cases p with
  | unknownName name =>
    have hname := oneLine_of_isWellFormedName (isWellFormedName_of_mem_lint h)
    exact oneLine_append_iff.2 ⟨oneLine_append_iff.2 ⟨oneLine_words (by decide), hname⟩, by decide⟩
  | secondCombinator => exact oneLine_words (by decide)
  | malformedName operand =>
    have hshown := hoperand operand rfl
    exact oneLine_append_iff.2 ⟨oneLine_append_iff.2 ⟨oneLine_words (by decide), hshown⟩, by decide⟩

/-! ## Texts that stand as they are -/

/-- What a finding for a defect repeats as it stands. -/
inductive Defect.Repeats : Defect → Finding → String → Prop
  /-- The key of the entry that is wrong, if it is a text. -/
  | key {d : Defect} {f : Finding} {name : String} (found : f ∈ d.findings)
    (key : d.key? = some (.text name)) : Repeats d f name
  /-- An operand in which lint finds no name. -/
  | operand {name rule operand : String} (problem : .malformedName operand ∈ lint rule) :
    Repeats (.linted name rule)
      ⟨"RULE003", "rules." ++ name, (RuleProblem.malformedName operand).message, ""⟩ operand

/-- What a diagnostic repeats as it stands. -/
inductive Repeats (storage : Storage) (root : Location) (named : Option Location) :
    Diagnostic → String → Prop
  /-- The path. -/
  | path (d : Diagnostic) : Repeats storage root named d d.path
  /-- The words with which the reader refuses the document. -/
  | problem {words : String}
    (refused : storage (configLocation root named) = .file (.error (.declared words))) :
    Repeats storage root named
      ⟨"CFG002", (configLocation root named).text, "", "invalid YAML: " ++ words, ""⟩ words
  /-- A text of an entry of the document. -/
  | entry {entries : List (Value × Value)} {defect : Defect} {f : Finding} {s : String}
    (document : storage (configLocation root named) = .file (.ok (.map entries)))
    (defective : Defective entries defect) (repeated : defect.Repeats f s) :
    Repeats storage root named (f.diagnostic (configLocation root named).text) s

/-! ## Findings -/

/-- Whether the parts of a finding are one line. -/
def Finding.IsOneLine (f : Finding) : Prop :=
  OneLine f.code ∧ OneLine f.field ∧ OneLine f.message ∧ OneLine f.hint

theorem oneLine_keyHint (key : String) : OneLine (keyHint key) := by
  have hkeys : ∀ k ∈ configKeys, OneLine k := by decide +kernel
  unfold keyHint
  split
  · next k hk =>
    have hmem := ((nearestKey?_eq_some_iff configKeys_ne_empty).1 hk).1
    simp only [oneLine_append_iff, Diagnostic.oneLine_ticked_iff]
    exact ⟨⟨oneLine_words (by decide), hkeys k hmem⟩, by decide⟩
  · decide

/-- What is said of a date that is refused is one line. -/
theorem oneLine_of_readDate {v : Value} {e : ConfigError}
    (h : readDate "today" v = .error (.declared e)) : OneLine e.message := by
  have hmessage {shown : String} (hshown : OneLine shown) :
      OneLine (ConfigError.notDate "today" shown).message :=
    oneLine_append_iff.2 ⟨oneLine_append_iff.2 ⟨oneLine_words (by decide),
      oneLine_words (by decide)⟩, hshown⟩
  unfold readDate at h
  split at h
  · cases h
  · cases h
  · cases h
  · split at h
    · cases h
    · cases h
      exact hmessage (Text.oneLine_quoted _)
  · split at h
    · next hshown =>
      cases h
      exact hmessage (Value.oneLine_shown hshown)
    · cases h

/-- What a key of a document says is one line if every text is. -/
theorem oneLine_of_toText {k : Value} {shown : String} (h : k.toText = .ok shown)
    (htext : ∀ name, k = .text name → OneLine name) : OneLine shown := by
  cases hkind : k.isString with
  | false => exact Value.oneLine_toText hkind h
  | true =>
    obtain ⟨name, rfl⟩ : ∃ name, k = .text name := by
      cases k with
      | text name => exact ⟨name, rfl⟩
      | _ => cases hkind
    cases h
    exact htext _ rfl

theorem isOneLine_unknownKeyFinding {key : String} (hkey : OneLine key) :
    (unknownKeyFinding key).IsOneLine := by
  refine ⟨oneLine_words (by decide), hkey, ?_, oneLine_keyHint key⟩
  exact oneLine_append_iff.2 ⟨oneLine_words (by decide), Diagnostic.oneLine_ticked_iff.2 hkey⟩

theorem isOneLine_keyFinding {name shown : String} (hname : OneLine name) (hshown : OneLine shown) :
    (keyFinding name shown).IsOneLine := by
  refine ⟨oneLine_words (by decide), ?_, ?_, oneLine_words (by decide)⟩
  · exact oneLine_append_iff.2 ⟨oneLine_append_iff.2 ⟨hname, by decide⟩, hshown⟩
  · exact oneLine_append_iff.2 ⟨oneLine_words (by decide), Diagnostic.oneLine_ticked_iff.2 hname⟩

/-- A finding for the kind of what stands in a field is one line if the field and the hint are. -/
theorem isOneLine_of_field {field hint : String} (hfield : OneLine field) (hhint : OneLine hint) :
    Finding.IsOneLine
      ⟨"CFG005", field, "invalid type for " ++ Diagnostic.ticked field, hint⟩ := by
  refine ⟨oneLine_words (by decide), hfield, ?_, hhint⟩
  exact oneLine_append_iff.2 ⟨oneLine_words (by decide), Diagnostic.oneLine_ticked_iff.2 hfield⟩

/-- A finding of lint is one line if the field and what lint says are. -/
theorem isOneLine_of_problem {p : RuleProblem} {field : String} (hfield : OneLine field)
    (hmessage : OneLine p.message) : Finding.IsOneLine ⟨p.code, field, p.message, ""⟩ := by
  have hcodes : ∀ code ∈ ["RULE001", "RULE002", "RULE003"], OneLine code := by decide
  have hcode : OneLine p.code := by cases p <;> exact hcodes _ (by simp [RuleProblem.code])
  exact ⟨hcode, hfield, hmessage, oneLine_words (by decide)⟩

section Findings

variable {entries : List (Value × Value)} {defect : Defect} {f : Finding} {s : String}

/-- Where the texts that it repeats are one line, a finding is. -/
theorem isOneLine_of_repeats (hdefect : Defective entries defect) (hf : f ∈ defect.findings)
    (h : ∀ s, defect.Repeats f s → OneLine s) : f.IsOneLine := by
  -- A finding repeats a key of the file or an operand of a rule, which have one line by
  -- hypothesis; the words around them are fixed, and other values are shown.
  have hkey {name : String} (hname : defect.key? = some (.text name)) : OneLine name :=
    h name (.key hf hname)
  have hsections : ∀ name ∈ sectionKeys, OneLine name := by decide +kernel
  have henv : OneLine "env." := oneLine_words (by decide)
  have hrules : OneLine "rules." := oneLine_words (by decide)
  cases hdefect with
  | unknownKey mem written unknown =>
    rw [List.mem_singleton.1 hf]
    exact isOneLine_unknownKeyFinding
      (oneLine_of_toText written fun name hname => hkey (congrArg some hname))
  | notMapping mem nonempty kind =>
    rw [List.mem_singleton.1 hf]
    exact isOneLine_of_field (hsections _ mem) (oneLine_words (by decide))
  | keyType mem entry kind written =>
    rw [List.mem_singleton.1 hf]
    exact isOneLine_keyFinding (hsections _ mem) (Value.oneLine_toText kind written)
  | notScalar entry kind =>
    rw [List.mem_singleton.1 hf]
    have hfield := oneLine_append_iff.2 ⟨henv, hkey rfl⟩
    exact isOneLine_of_field hfield (oneLine_words (by decide))
  | notDate refused =>
    rw [List.mem_singleton.1 hf]
    exact ⟨oneLine_words (by decide), oneLine_words (by decide),
      oneLine_of_readDate refused, oneLine_words (by decide)⟩
  | notRule entry kind =>
    rw [List.mem_singleton.1 hf]
    have hfield := oneLine_append_iff.2 ⟨hrules, hkey rfl⟩
    exact isOneLine_of_field hfield (oneLine_words (by decide))
  | linted entry kind problems =>
    obtain ⟨p, hp, rfl⟩ := List.mem_map.1 hf
    refine isOneLine_of_problem (oneLine_append_iff.2 ⟨hrules, hkey rfl⟩) ?_
    refine oneLine_message hp fun operand hoperand => ?_
    subst hoperand
    exact h operand (.operand hp)

/-- A finding that is one line repeats no text that is not. -/
theorem oneLine_of_repeats (hdefect : Defective entries defect) (hf : f.IsOneLine)
    (h : defect.Repeats f s) : OneLine s := by
  obtain ⟨-, hfield, hmessage, -⟩ := hf
  cases h with
  | operand problem =>
    exact (oneLine_append_iff.1 (oneLine_append_iff.1 hmessage).1).2
  | key found key =>
    -- the key of the entry ends the field
    cases hdefect with
    | unknownKey mem written unknown =>
      rw [List.mem_singleton.1 found] at hfield
      rw [Option.some.inj key] at written
      cases written
      exact hfield
    | notMapping => cases key
    | @keyType name e shown mem entry kind written =>
      rw [Option.some.inj key] at kind
      cases kind
    | notScalar entry kind =>
      cases key
      rw [List.mem_singleton.1 found] at hfield
      exact (oneLine_append_iff.1 hfield).2
    | notDate => cases key
    | notRule entry kind =>
      cases key
      rw [List.mem_singleton.1 found] at hfield
      exact (oneLine_append_iff.1 hfield).2
    | linted entry kind problems =>
      cases key
      obtain ⟨p, -, rfl⟩ := List.mem_map.1 found
      exact (oneLine_append_iff.1 hfield).2

end Findings

/-! ## Diagnostics -/

theorem oneLine_typeName (v : Value) : OneLine v.typeName := by
  cases v with
  | enclosing up isMap => cases isMap <;> simp [Value.typeName, OneLine]
  | _ => simp [Value.typeName, OneLine]

theorem oneLine_line_diagnostic_iff {path : String} {f : Finding} :
    OneLine (f.diagnostic path).line ↔ OneLine path ∧ f.IsOneLine := by
  rw [Diagnostic.oneLine_line_iff]
  exact and_left_comm

section Storages

variable {storage : Storage} {root : Location} {named : Option Location} {d : Diagnostic}
  {ds : List Diagnostic} {s : String}

/-- A diagnostic that is one line repeats no text that is not. -/
theorem Repeats.oneLine (h : Repeats storage root named d s) (hline : OneLine d.line) :
    OneLine s := by
  cases h with
  | path => exact (Diagnostic.oneLine_line_iff.1 hline).2.1
  | problem refused =>
    exact (oneLine_append_iff.1 (Diagnostic.oneLine_line_iff.1 hline).2.2.2.1).2
  | entry document defective repeated =>
    exact oneLine_of_repeats defective (oneLine_line_diagnostic_iff.1 hline).2 repeated

/-- A diagnostic about a path is one line if the path is. -/
theorem oneLine_line_of_path {code words path : String} (hcode : OneLine code)
    (hwords : OneLine words) (hpath : OneLine path) :
    OneLine (Diagnostic.line ⟨code, path, "", words ++ path, ""⟩) :=
  Diagnostic.oneLine_line_iff.2 ⟨hcode, hpath, oneLine_words (by decide),
    oneLine_append_iff.2 ⟨hwords, hpath⟩, oneLine_words (by decide)⟩

/-- Where the texts that it repeats are one line, a finding for a document is. -/
theorem isOneLine_of_documentFindings {document : Reading} {fs : List Finding}
    {f : Finding} (hentry : storage (configLocation root named) = .file document)
    (hfs : documentFindings document = .ok fs) (hf : f ∈ fs)
    (h : ∀ s, Repeats storage root named (f.diagnostic (configLocation root named).text) s →
      OneLine s) : f.IsOneLine := by
  have hempty : OneLine "" := by decide
  unfold documentFindings at hfs
  split at hfs
  · cases hfs
    rw [List.mem_singleton.1 hf] at h ⊢
    exact ⟨oneLine_words (by decide), hempty,
      oneLine_append_iff.2 ⟨oneLine_words (by decide), h _ (.problem hentry)⟩, hempty⟩
  · cases hfs
  · cases hfs
    exact absurd hf List.not_mem_nil
  · obtain ⟨defect, hdefect, hfound⟩ := (mem_entryFindings_iff hfs).1 hf
    exact isOneLine_of_repeats hdefect hfound fun s hs => h s (.entry hentry hdefect hs)
  · cases hfs
    rw [List.mem_singleton.1 hf]
    exact ⟨oneLine_words (by decide), hempty,
      oneLine_append_iff.2 ⟨oneLine_words (by decide), oneLine_typeName _⟩, hempty⟩

/-- Where the texts that it repeats are one line, a diagnostic is. -/
theorem oneLine_line_of_preflight (h : preflight storage root named = .ok ds) (hd : d ∈ ds)
    (hrepeats : ∀ s, Repeats storage root named d s → OneLine s) : OneLine d.line := by
  have hpath := hrepeats d.path (.path d)
  -- without a root there is one line about it, and else the lines of the file
  by_cases hroot : storage root = .directory
  · rw [preflight_of_directory hroot] at h
    cases hentry : storage (configLocation root named) with
    | missing =>
      simp only [diagnose, hentry] at h
      cases h
      split at hd
      · rw [List.mem_singleton.1 hd] at hpath ⊢
        exact oneLine_line_of_path (by decide) (oneLine_words (by decide)) hpath
      · exact absurd hd List.not_mem_nil
    | directory | failing f =>
      simp only [diagnose, hentry] at h
      cases h
    | file document =>
      obtain ⟨fs, hfs, rfl⟩ := (diagnose_of_file hentry).1 h
      rw [Diagnostic.mem_sort] at hd
      obtain ⟨f, hf, rfl⟩ := List.mem_map.1 hd
      exact oneLine_line_diagnostic_iff.2
        ⟨hpath, isOneLine_of_documentFindings hentry hfs hf hrepeats⟩
  · rw [eq_of_preflight_of_ne_directory hroot h] at hd
    rw [List.mem_singleton.1 hd] at hpath ⊢
    exact oneLine_line_of_path (by decide) (oneLine_words (by decide)) hpath

/-- **Which diagnostics are one line.** Whatever a storage holds and whatever words a reader has, a
diagnostic of the preflight is one line exactly if every text that it repeats as it stands is one.
What is printed has one line for each diagnostic and one more for each line feed in them. So it has
as many lines as there are diagnostics exactly if no text that is repeated holds a line feed. -/
theorem lines_of_preflight (h : preflight storage root named = .ok ds) :
    (∀ d ∈ ds, OneLine d.line ↔ ∀ s, Repeats storage root named d s → OneLine s) ∧
    (ds ≠ [] → ((Diagnostic.format ds).toList.splitOn '\n').length =
      ds.length + (ds.map fun d => lineFeeds d.line).sum) ∧
    (ds ≠ [] → (((Diagnostic.format ds).toList.splitOn '\n').length = ds.length ↔
      ∀ d ∈ ds, ∀ s, Repeats storage root named d s → OneLine s)) := by
  have hlines : ∀ d ∈ ds, OneLine d.line ↔ ∀ s, Repeats storage root named d s → OneLine s :=
    fun d hd => ⟨fun hline s hs => hs.oneLine hline, oneLine_line_of_preflight h hd⟩
  refine ⟨hlines, Diagnostic.length_splitOn_format, fun hne => ?_⟩
  rw [Diagnostic.length_splitOn_format hne, Nat.add_eq_left, List.sum_eq_zero_iff,
    List.forall_mem_map]
  exact forall₂_congr fun d hd => lineFeeds_eq_zero_iff.trans (hlines d hd)

/-- An operand of two lines stands in the message as it is. -/
theorem lines_of_preflight_of_operand :
    let storage : Storage := fun l =>
      if l = .top then .directory
      else .file (.ok (.map [(.text "rules", .map [(.text "r", .text "x.y:a\nb")])]))
    let d : Diagnostic :=
      ⟨"RULE003", "/criteria.yaml", "rules.r", "malformed predicate name in 'x.y:a\nb'", ""⟩
    preflight storage .top none = .ok [d] ∧
      ¬ (∀ s, Repeats storage .top none d s → OneLine s) ∧
      ((Diagnostic.format [d]).toList.splitOn '\n').length = 2 := by
  intro storage d
  have hrule : ruleFindings (.text "r", .text "x.y:a\nb") =
      [⟨"RULE003", "rules.r", "malformed predicate name in 'x.y:a\nb'", ""⟩] := by decide +kernel
  have hpreflight : preflight storage .top none = .ok [d] := by
    rw [preflight_of_directory (if_pos rfl), diagnose_one_rule (if_neg (by decide)), hrule]
    exact congrArg Except.ok (List.mergeSort_singleton _)
  have hfeeds : lineFeeds d.line = 1 := by decide +kernel
  obtain ⟨hlines, hprinted, -⟩ := lines_of_preflight hpreflight
  refine ⟨hpreflight, fun hrepeats => ?_, ?_⟩
  · have hline := (hlines d (List.mem_singleton_self d)).2 hrepeats
    rw [lineFeeds_eq_zero_iff.2 hline] at hfeeds
    cases hfeeds
  · rw [hprinted (List.cons_ne_nil _ _), List.map_singleton, List.sum_singleton, hfeeds]
    rfl

/-- The document of a file with one key, which has two lines. -/
theorem document_one_key :
    Yaml.reader.ofBytes "\"a\\nb\": 1\n".toUTF8 = .ok (.map [(.text "a\nb", .int 1)]) := by
  have htext : textOfBytes? "\"a\\nb\": 1\n".toUTF8 = some "\"a\\nb\": 1\n" := by decide +kernel
  have htokens : Yaml.tokens "\"a\\nb\": 1\n".toList = .ok
      [.blockMappingStart, .key, .scalar "a\nb" false, .value, .scalar "1" true, .blockEnd] := by
    decide +kernel
  simp only [Reader.ofBytes, htext, Yaml.reader, Yaml.document, Yaml.documentOfChars, htokens]
  rfl

/-- A key of two lines that no configuration has makes one diagnostic of three lines. -/
theorem preflight_of_key_of_two_lines :
    let content : Location → Content := fun l =>
      if l = .top then .directory
      else if l = configLocation .top none then .file "\"a\\nb\": 1\n".toUTF8
      else .nothing
    let disk : Disk := ⟨Location.top.seek, content⟩
    let d : Diagnostic :=
      ⟨"CFG004", "/criteria.yaml", "a\nb", "unknown key \x60a\nb\x60", ""⟩
    preflight (disk.storage Yaml.reader) .top none = .ok [d] ∧ ¬ OneLine d.line ∧
      ((Diagnostic.format [d]).toList.splitOn '\n').length = 3 := by
  intro content disk d
  have hroot : disk.storage Yaml.reader .top = .directory := by
    simp [Disk.storage, disk, content, Content.entry]
  have hdocument : disk.storage Yaml.reader (configLocation .top none) =
      .file (.ok (.map [(.text "a\nb", .int 1)])) := by
    have hcontent : disk.content (configLocation .top none) = .file "\"a\\nb\": 1\n".toUTF8 := by
      simp [disk, content, configLocation, Location.top, Location.child]
    rw [← document_one_key, Disk.storage, hcontent, Content.entry]
  have hunknown : unknownKeys ["a\nb"] = ["a\nb"] := by simp [unknownKeys, sortTexts, configKeys]
  have hfinding : unknownKeyFinding "a\nb" =
      ⟨"CFG004", "a\nb", "unknown key \x60a\nb\x60", ""⟩ := by decide +kernel
  have hfindings : entryFindings [(.text "a\nb", .int 1)] = .ok _ :=
    entryFindings_eq_ok_iff.2 ⟨["a\nb"], [], [], [], [], rfl, rfl, rfl, rfl, rfl, rfl⟩
  rw [hunknown, List.map_singleton, hfinding] at hfindings
  have hdiagnose : diagnose (disk.storage Yaml.reader) .top none false = .ok [d] :=
    (diagnose_of_file hdocument).2 ⟨_, hfindings, List.mergeSort_singleton _⟩
  have hfeeds : lineFeeds d.line = 2 := by decide +kernel
  refine ⟨(preflight_of_directory hroot).trans hdiagnose, fun hline => ?_, ?_⟩
  · rw [lineFeeds_eq_zero_iff.2 hline] at hfeeds
    cases hfeeds
  · rw [Diagnostic.length_splitOn_format (List.cons_ne_nil _ _), List.map_singleton,
      List.sum_singleton, hfeeds]
    rfl

end Storages

end Verdict
