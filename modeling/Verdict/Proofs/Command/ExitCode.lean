import Verdict.Config.Disk
import Verdict.Proofs.Command.Faults
import Verdict.Proofs.Config.Preflight
import Verdict.Yaml.Document
/-!
# Exit codes

A run says by its exit code whether rules hold, and by the code 2 that it could not find out. Only
faults end a run without a code; `run_ends` says exactly when that is so, and that otherwise the
code is what it should be, for every parser of arguments and whatever fails around the program.
`run_impossible_date` shows that a date in the configuration is enough to end a run without one,
though the rule has nothing to do with it.
-/

namespace Verdict.Command

/-- Whether a completion refuses to answer: it has the code 2, nothing on the standard output, and
the reason on the error output. -/
def Completion.IsRefusal (c : Completion) : Prop := c.exit = 2 ∧ c.output = "" ∧ c.errors ≠ ""

/-- Whether a completion's code says what its texts say: with 0 and 1 there is an answer on the
standard output, and with 2 it refuses to give one. -/
def Completion.IsCoded (c : Completion) : Prop :=
  (c.exit = 0 ∨ c.exit = 1) ∧ c.output ≠ "" ∨ c.IsRefusal

theorem append_ne_empty {s t : String} (h : t ≠ "") : s ++ t ≠ "" := by
  simp [h]

/-- A failed attempt that has a completion all the same declared its error, and was refused. -/
theorem refused_of_reply {ε : Type} {refuse : ε → Reply} {e : Failure ε} {verbose : Bool}
    {log : List Event} {c : Completion} (hrefuse : ∀ e, ∃ line, refuse e = .refusal line)
    (h : (Failure.reply refuse e).map (completion verbose log) = .ok c) :
    (∃ e', e = .declared e') ∧ c.IsRefusal := by
  cases e with
  | declared e =>
    obtain ⟨line, hline⟩ := hrefuse e
    rw [Failure.reply, hline] at h
    cases h
    exact ⟨⟨e, rfl⟩, rfl, rfl, append_ne_empty (by decide)⟩
  | fault f => cases h

theorem isCoded_answer (verbose : Bool) (log : List Event) {exit : Nat}
    (hexit : exit = 0 ∨ exit = 1) (line : String) :
    (completion verbose log (.answer exit line)).IsCoded :=
  .inl ⟨hexit, append_ne_empty (by decide)⟩

theorem isCoded_defects (ds : List Diagnostic) : (Surroundings.defects ds).IsCoded :=
  .inr ⟨rfl, rfl, append_ne_empty (by decide)⟩

theorem configRefusal_eq (e : ConfigError) : ∃ line, configRefusal e = .refusal line := ⟨_, rfl⟩

theorem clauseRefusal_eq (e : ClauseError) : ∃ line, clauseRefusal e = .refusal line := ⟨_, rfl⟩

namespace Surroundings

variable {s : Surroundings} {site : Site} {c : Completion} {verbose : Bool}

/-! ## Commands -/

/-- The evaluation of one rule has a code that goes with its texts. -/
theorem runEval_isCoded {rule : String} {data settings : List (Option String)}
    {date : Option (Option String)} (h : s.runEval site rule data settings date verbose = .ok c) :
    c.IsCoded := by
  unfold runEval at h
  dsimp only at h
  split at h
  · exact .inr (refused_of_reply configRefusal_eq h).2
  · split at h
    · exact .inr (refused_of_reply configRefusal_eq h).2
    · next E _ =>
      revert h
      cases (E.evaluate rule s.bits).result with
      | ok b =>
        rintro ⟨⟩
        exact isCoded_answer verbose _ (by cases b <;> simp) _
      | error e => exact fun h => .inr (refused_of_reply clauseRefusal_eq h).2

/-- The evaluation of rules of a configuration has a code that goes with its texts. -/
theorem runCheck_isCoded {names : List String} {json : Bool}
    (h : s.runCheck site names json verbose = .ok c) : c.IsCoded := by
  unfold runCheck at h
  obtain ⟨ds, -, h⟩ := bind_eq_ok_iff.1 h
  split at h
  · cases h
    exact isCoded_defects ds
  · dsimp only at h
    split at h
    · exact .inr (refused_of_reply configRefusal_eq h).2
    · next config _ =>
      split at h
      · cases h
        exact .inr ⟨rfl, rfl, append_ne_empty (by decide)⟩
      · next rules _ =>
        -- a row of rules is answered if all of them are, and refused with the first that is not
        revert h
        cases ((s.evaluator config .empty).evaluateRules rules.entries s.bits).result with
        | ok rs =>
          rintro ⟨⟩
          refine isCoded_answer verbose _ ?_ _
          cases allHold rs <;> simp
        | error e => exact fun h => .inr (refused_of_reply clauseRefusal_eq h).2

theorem runValidate_isCoded (h : s.runValidate site = .ok c) : c.IsCoded := by
  unfold runValidate at h
  obtain ⟨ds, -, h⟩ := bind_eq_ok_iff.1 h
  split at h
  · cases h
    exact .inl ⟨.inl rfl, by decide⟩
  · cases h
    exact isCoded_defects ds

theorem runRequest_isCoded {r : Request} (h : s.runRequest r = .ok c) : c.IsCoded := by
  obtain ⟨site, -, h⟩ := bind_eq_ok_iff.1 h
  cases r with
  | eval => exact runEval_isCoded h
  | check => exact runCheck_isCoded h
  | validate => exact runValidate_isCoded h

end Surroundings

/-! ## Refusals -/

/-- Whether a request is to be refused for its configuration, or for what its options give. -/
inductive Request.Unusable (s : Surroundings) : Request → Prop
  /-- Loading the configuration is refused. -/
  | config {r : Request} {site : Site} {e : ConfigError}
    (located : r.place.site s.resolve = .ok site)
    (refused : (s.load site).result = .error (.declared e)) : Request.Unusable s r
  /-- The date, the settings or the context data of the arguments are refused. -/
  | options {place : Place} {site : Site} {rule : String} {data settings : List (Option String)}
    {date : Option (Option String)} {verbose : Bool} {config : Config} {e : ConfigError}
    (located : place.site s.resolve = .ok site) (loaded : (s.load site).result = .ok config)
    (refused : s.layered config data settings date = .error (.declared e)) :
    Request.Unusable s (.eval place rule data settings date verbose)

namespace Surroundings

variable {s : Surroundings} {site : Site} {c : Completion} {verbose : Bool} {e : ConfigError}

/-- A configuration whose loading is refused is one with diagnostics. -/
theorem diagnostics_ne_nil {ds : List Diagnostic} (hdiagnostics : s.diagnostics site = .ok ds)
    (refused : (s.load site).result = .error (.declared e)) : ds ≠ [] := by
  obtain ⟨asked, hasked, hpreflight⟩ := bind_eq_ok_iff.1 hdiagnostics
  by_cases hroot : s.storage site.root = .directory
  · have located : site.config = .ok asked := (askedFor_of_directory hroot).symm.trans hasked
    rw [load_of_located located] at refused
    rw [preflight_of_directory hroot] at hpreflight
    obtain ⟨d, hd, -⟩ := (loadConfig_refusesIff hpreflight).2 e refused
    exact List.ne_nil_of_mem hd
  · rw [eq_of_preflight_of_ne_directory hroot hpreflight]
    exact List.cons_ne_nil _ _

/-- A request with an unusable configuration or unusable options is refused, whatever it asks for.
-/
theorem exit_of_unusable {r : Request} (unusable : r.Unusable s) (h : s.runRequest r = .ok c) :
    c.exit = 2 := by
  obtain ⟨site, hsite, h⟩ := bind_eq_ok_iff.1 h
  -- the commands that diagnose find what the loading refuses before they load
  cases unusable with
  | config located refused =>
    cases hsite.symm.trans located
    cases r with
    | eval place rule data settings date verbose =>
      unfold runEval at h
      dsimp only at h
      rw [refused] at h
      exact (refused_of_reply configRefusal_eq h).2.1
    | check place names json verbose =>
      obtain ⟨ds, hds, h⟩ := bind_eq_ok_iff.1 h
      rw [if_pos (by simpa using diagnostics_ne_nil hds refused)] at h
      cases h
      rfl
    | validate place =>
      obtain ⟨ds, hds, h⟩ := bind_eq_ok_iff.1 h
      rw [if_neg (by simpa using diagnostics_ne_nil hds refused)] at h
      cases h
      rfl
  | options located loaded refused =>
    cases hsite.symm.trans located
    dsimp only at h
    unfold runEval at h
    dsimp only at h
    rw [loaded] at h
    dsimp only at h
    rw [refused] at h
    exact (refused_of_reply configRefusal_eq h).2.1

end Surroundings

/-! ## The program -/

theorem NoRequest.isCoded_completion (n : NoRequest) : n.completion.IsCoded := by
  unfold NoRequest.completion
  split
  · exact .inl ⟨.inl rfl, by decide⟩
  · exact .inl ⟨.inl rfl, by decide⟩
  · exact .inr ⟨rfl, rfl, append_ne_empty (by decide)⟩

section Program

variable (parser : List String → Except NoRequest Request) (s : Surroundings) (args : List String)

/-- **How a run ends.** However the arguments are taken apart, and whatever the file system, the
reader of documents and the environment are and however they fail, a run has a code exactly when its
request meets no fault, and otherwise ends in a fault of the request. A code of 0 or 1 comes with an
answer and one of 2 with a reason, and a request is refused with 2 if its configuration or what its
options give is unusable.

What is left out is that a program may fail at the depth of a document or of a call, and that its
output may have no place for some character. -/
theorem run_ends :
    ((∃ c, runWith parser s args = .ok c) ↔
      ∀ request, parser args = .ok request → ∀ f, ¬ request.Meets s f) ∧
    (∀ f, runWith parser s args = .error f ↔
      ∃ request, parser args = .ok request ∧ request.Meets s f) ∧
    ∀ c, runWith parser s args = .ok c → c.IsCoded ∧
      ∀ request, parser args = .ok request → request.Unusable s → c.exit = 2 := by
  unfold runWith
  -- arguments that are refused have their notice; a request ends as its command does
  cases parser args with
  | error n =>
    refine ⟨⟨fun _ => nofun, fun _ => ⟨n.completion, rfl⟩⟩, fun f => ⟨nofun, nofun⟩, ?_⟩
    rintro c ⟨⟩
    exact ⟨n.isCoded_completion, nofun⟩
  | ok request =>
    dsimp only
    refine ⟨⟨?_, ?_⟩, fun f => ⟨?_, ?_⟩, ?_⟩
    · rintro ⟨c, h⟩ _ ⟨⟩ f meets
      cases h.symm.trans (runRequest_eq_error_iff.2 meets)
    · intro h
      cases hrun : s.runRequest request with
      | ok c => exact ⟨c, rfl⟩
      | error f => exact absurd (runRequest_eq_error_iff.1 hrun) (h request rfl f)
    · intro h
      exact ⟨request, rfl, runRequest_eq_error_iff.1 h⟩
    · rintro ⟨_, ⟨⟩, meets⟩
      exact runRequest_eq_error_iff.2 meets
    · intro c h
      refine ⟨Surroundings.runRequest_isCoded h, ?_⟩
      rintro _ ⟨⟩ unusable
      exact Surroundings.exit_of_unusable unusable h

/-- A date that no calendar has ends the evaluation of a rule that asks for no date. -/
theorem run_impossible_date :
    let content : Location → Content := fun l =>
      if l = .top then .directory
      else if l = configLocation .top none then .file "today: 2017-02-30\n".toUTF8
      else .nothing
    let disk : Disk := ⟨Location.top.seek, content⟩
    run ⟨disk.resolve, disk.storage Yaml.reader, Yaml.reader, .empty, .first, fun _ => false⟩
      ["eval", "always"] = .error .dayRange := by
  decide +kernel

end Program

end Verdict.Command
