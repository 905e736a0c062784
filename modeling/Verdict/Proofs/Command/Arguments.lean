import Verdict.Command.Request
import Verdict.Proofs.Attempt
/-!
# Reading command lines

A command line that is accepted is the text of a command with arguments behind it, which the command
reads alone (`readRequest_eq_ok_iff`). How arguments are used does not depend on the options that
were given before them (`useArguments_behind`). So one more `-v` behind the command leaves a request
as it is, but for the log that it asks for (`readRequest_addVerbose`).
-/

namespace Verdict.Command

variable {flags : List Flag} {count : OperandCount} {f g : Flag} {arg name : String}
  {joined : Option (List Char)}

/-! ## What an argument is -/

theorem mem_of_findFlag? (h : findFlag? flags name = some f) : f ∈ flags :=
  List.mem_of_find?_eq_some h

theorem mem_of_mem_allNames {entry : String × Flag} (h : entry ∈ allNames flags) :
    entry.2 ∈ flags := by
  obtain ⟨f, hf, hentry⟩ := List.mem_flatMap.1 h
  obtain ⟨n, -, rfl⟩ := List.mem_map.1 hentry
  exact hf

theorem mem_of_mem_longMatches {cs : List Char} {n : String}
    (h : (n, Role.option f name joined) ∈ longMatches flags cs) : f ∈ flags := by
  obtain ⟨entry, hentry, h⟩ := List.mem_filterMap.1 h
  obtain ⟨-, h⟩ := Option.ite_none_right_eq_some.1 h
  cases h
  exact mem_of_mem_allNames hentry

/-- What an argument with one dash may mean is an option of the command. -/
theorem mem_of_mem_shortMatches {cs : List Char} {n : String}
    (h : (n, Role.option f name joined) ∈ shortMatches flags cs) : f ∈ flags := by
  obtain ⟨entry, hentry, h⟩ := List.mem_filterMap.1 h
  dsimp only at h
  split at h
  · cases h
    exact mem_of_mem_allNames hentry
  · split at h
    · cases h
      exact mem_of_mem_allNames hentry
    · cases h

/-- An argument that is an option is one of the command's options. -/
theorem mem_of_roleOf (h : roleOf flags arg = .ok (.option f name joined)) : f ∈ flags := by
  unfold roleOf at h
  split at h
  · cases h
  · next d tail _ =>
    split at h
    · cases h
    · split at h
      · next hfind =>
        cases h
        exact mem_of_findFlag? hfind
      · split at h
        · cases h
        · dsimp only at h
          split at h
          · next hfind =>
            cases h
            exact mem_of_findFlag? hfind
          · split at h
            · cases h
            · next role hfound =>
              cases h
              have hmem := hfound ▸ List.mem_singleton_self (_, Role.option f name joined)
              split at hmem
              · exact mem_of_mem_longMatches hmem
              · exact mem_of_mem_shortMatches hmem
            · split at h <;> cases h

/-! ## What was used before -/

/-- What arguments say behind others that gave options, or were not understood. -/
def Parsed.behind (p : Parsed) (given : List Given) (extras : List String) : Parsed :=
  ⟨given ++ p.given, p.operands, extras ++ p.extras⟩

/-- A step that ends in the same way behind other arguments, and leaves them in front. -/
def Oblivious (step : Parsed → Except Stop Parsed) : Prop :=
  ∀ given extras p, step (p.behind given extras) = (step p).map fun q => q.behind given extras

namespace Oblivious

variable {step next : Parsed → Except Stop Parsed}

theorem bind (hstep : Oblivious step) (hnext : Oblivious next) :
    Oblivious fun p => step p >>= next := by
  intro given extras p
  dsimp only
  rw [hstep]
  cases step p with
  | error e => rfl
  | ok q => exact hnext given extras q

theorem give (f : Flag) (value : Option String) : Oblivious fun p => p.give f value := by
  intro given extras p
  unfold Parsed.give
  cases f.kind with
  | help => rfl
  | version => rfl
  | switch => simp [Parsed.behind, Except.map]
  | value => simp [Parsed.behind, Except.map]

theorem giveAll (fs : List Flag) : Oblivious fun p => p.giveAll fs := by
  induction fs with
  | nil => exact fun given extras p => rfl
  | cons f fs ih => exact (give f none).bind ih

/-- Arguments are used one after the other, and no choice looks at the options that were given or at
the arguments that were not understood. -/
theorem useArguments (flags : List Flag) (count : OperandCount) (fuel : Nat) (as : List Argument) :
    Oblivious (useArguments flags count fuel as) := by
  induction fuel generalizing as with
  | zero => exact fun given extras p => rfl
  | succ fuel ih =>
    intro given extras p
    have hoperands : (p.behind given extras).operands = p.operands := rfl
    -- what is not understood goes behind what was not understood before
    have hskip (texts : List String) :
        { p.behind given extras with extras := extras ++ p.extras ++ texts } =
          Parsed.behind { p with extras := p.extras ++ texts } given extras := by
      rw [List.append_assoc]
      rfl
    cases as with
    | nil =>
      rw [Command.useArguments, Command.useArguments, hoperands]
      split <;> rfl
    | cons a as =>
      cases hrole : a.role with
      | unknown =>
        rw [Command.useArguments, Command.useArguments, hrole]
        exact (congrArg _ (hskip [a.text])).trans (ih as given extras _)
      | option f name joined =>
        rw [Command.useArguments, Command.useArguments, hrole]
        dsimp only
        cases joinedOptions flags f (name.toList.drop 1 |>.head?.all (· = '-')) joined with
        | error e => rfl
        | ok l =>
          simp only [mapError_ok, Bind.bind, Except.bind]
          have hlast (g : Flag) (value : String) (behind : List Argument) :=
            (giveAll l.switches).bind ((give g (some value)).bind (ih behind))
          split
          · next g value _ => exact hlast g (String.ofList value) as given extras p
          · next g _ =>
            split
            · next value behind => exact hlast g value behind given extras p
            · rfl
          · exact (giveAll l.switches).bind (ih as) given extras p
      | operand | separator =>
        rw [Command.useArguments, Command.useArguments, hrole]
        dsimp only
        rw [hoperands]
        split
        · next taken behind _ =>
          exact ih behind given extras { p with operands := some (operandTexts count taken) }
        · exact (congrArg _ (hskip _)).trans (ih _ given extras _)

end Oblivious

/-! ## Command lines -/

/-- An option without a value is the first of the letters that stand together. -/
theorem switches_of_letters {cs : List Char} {l : Letters} (hvalue : f.kind ≠ .value)
    (h : letters flags cs f = .ok l) : ∃ fs, l.switches = f :: fs := by
  cases cs with
  | nil =>
    rw [letters, if_neg hvalue] at h
    cases h
    exact ⟨[], rfl⟩
  | cons c cs =>
    rw [letters, if_neg hvalue] at h
    split at h
    · cases h
    · obtain ⟨l', -, rfl⟩ := map_eq_ok_iff.1 h
      exact ⟨l'.switches, rfl⟩

theorem switches_of_joinedOptions {isLong : Bool} {l : Letters} (hvalue : f.kind ≠ .value)
    (h : joinedOptions flags f isLong joined = .ok l) : ∃ fs, l.switches = f :: fs := by
  unfold joinedOptions at h
  split at h
  · exact switches_of_letters hvalue h
  · rw [if_neg hvalue] at h
    split at h
    · cases h
    · exact switches_of_letters hvalue h

theorem kind_of_mem_programFlags (h : f ∈ programFlags) : f.kind = .help ∨ f.kind = .version := by
  rcases List.mem_cons.1 h with rfl | h
  · exact .inl rfl
  · rw [List.mem_singleton.1 h]
    exact .inr rfl

/-- Nothing comes behind an option of the program. -/
theorem useArguments_of_option {a : Argument} (h : f ∈ programFlags)
    (ha : a.role = .option f name joined) (fuel : Nat) (as : List Argument) (p : Parsed) :
    ∃ e, useArguments programFlags count (fuel + 1) (a :: as) p = .error e := by
  have hkind := kind_of_mem_programFlags h
  have hvalue : f.kind ≠ .value := by
    rcases hkind with h | h <;> rw [h] <;> decide
  have hgive (fs : List Flag) : ∃ e, p.giveAll (f :: fs) = .error e := by
    rcases hkind with h | h <;> simp [Parsed.giveAll, Parsed.give, h, bind, Except.bind]
  rw [useArguments, ha]
  dsimp only
  cases hl : joinedOptions programFlags f (name.toList.drop 1 |>.head?.all (· = '-')) joined with
  | error e => exact ⟨_, rfl⟩
  | ok l =>
    obtain ⟨fs, hfs⟩ := switches_of_joinedOptions hvalue hl
    obtain ⟨e, he⟩ := hgive fs
    simp only [mapError_ok, bind, Except.bind, hfs, he]
    split
    · exact ⟨e, rfl⟩
    · split <;> exact ⟨_, rfl⟩
    · exact ⟨e, rfl⟩

/-- Sorting arguments changes none of them. -/
theorem texts_of_sortArguments {args : List String} {as : List Argument}
    (h : sortArguments flags args = .ok as) : as.map Argument.text = args := by
  induction args generalizing as with
  | nil =>
    cases h
    rfl
  | cons arg args ih =>
    rw [sortArguments] at h
    split at h
    · cases h
      simp [Function.comp_def]
    · obtain ⟨role, -, h⟩ := bind_eq_ok_iff.1 h
      obtain ⟨as', hsort, h⟩ := bind_eq_ok_iff.1 h
      cases h
      rw [List.map_cons, ih hsort]

/-- An argument that is sorted as an option is one of the command. -/
theorem mem_of_sortArguments {args : List String} {a : Argument} {as : List Argument}
    (h : sortArguments flags args = .ok (a :: as)) (ha : a.role = .option f name joined) :
    f ∈ flags := by
  cases args with
  | nil => cases h
  | cons arg args =>
    rw [sortArguments] at h
    split at h
    · cases h
      cases ha
    · obtain ⟨role, hrole, h⟩ := bind_eq_ok_iff.1 h
      obtain ⟨as', -, h⟩ := bind_eq_ok_iff.1 h
      cases h
      exact mem_of_roleOf (hrole.trans (congrArg _ ha))

/-- In front of a command, all arguments are taken, or none. -/
theorem of_takeOperands_rest {as taken behind : List Argument}
    (h : takeOperands .rest as = some (taken, behind)) : taken = as ∧ behind = [] := by
  cases hdrop : as.dropWhile fun a => decide (a.role = .separator) with
  | nil => simp only [takeOperands, hdrop, reduceCtorEq] at h
  | cons a behind' =>
    simp only [takeOperands, hdrop] at h
    obtain ⟨-, h⟩ := Option.ite_none_left_eq_some.1 h
    cases h
    exact ⟨rfl, rfl⟩

/-- The program takes all its arguments as operands, if it understands them. -/
theorem of_parseArguments_program {args : List String} {p : Parsed} {name : String}
    {rest : List String} (h : parseArguments programFlags .rest args = .ok p)
    (hoperands : p.operands = some (name :: rest)) (hextras : p.extras = []) :
    args = name :: rest := by
  obtain ⟨as, hsort, h⟩ := bind_eq_ok_iff.1 h
  rw [mapError_eq_ok_iff] at hsort
  rw [← texts_of_sortArguments hsort]
  cases as with
  | nil =>
    cases h
    cases hoperands
  | cons a as =>
    -- what is not understood at first is left over at last
    have hleft {texts : List String} {behind : List Argument}
        (h : useArguments programFlags .rest (as.length + 1) behind ⟨[], none, texts⟩ = .ok p) :
        texts = [] := by
      have hbehind :=
        Oblivious.useArguments programFlags .rest (as.length + 1) behind [] texts .start
      simp only [Parsed.behind, Parsed.start, List.append_nil] at hbehind
      obtain ⟨q, -, rfl⟩ := map_eq_ok_iff.1 (hbehind.symm.trans h)
      exact (List.append_eq_nil_iff.1 hextras).1
    cases hrole : a.role with
    | option f name joined =>
      obtain ⟨e, he⟩ := useArguments_of_option (mem_of_sortArguments hsort hrole) hrole
        (as.length + 1) as .start
      cases h.symm.trans he
    | unknown =>
      rw [List.length_cons, useArguments, hrole] at h
      cases hleft h
    | operand | separator =>
      rw [List.length_cons, useArguments, hrole] at h
      dsimp only at h
      split at h
      · next taken behind htaken =>
        obtain ⟨rfl, rfl⟩ := of_takeOperands_rest htaken
        cases h
        exact Option.some.inj hoperands
      · have hskipped := hleft h
        simp [Argument.isOption, hrole] at hskipped

/-- The text of a command is an operand of the program. -/
theorem sortArguments_text (c : CommandName) (rest : List String) :
    sortArguments programFlags (c.text :: rest) =
      (sortArguments programFlags rest).map fun as => ⟨c.text, .operand⟩ :: as := by
  have hrole : roleOf programFlags c.text = .ok .operand ∧ c.text ≠ "--" := by
    cases c <;> decide
  rw [sortArguments, if_neg hrole.2, hrole.1]
  cases sortArguments programFlags rest <;> rfl

/-- A command's name in front is the first operand, and everything behind it belongs to the command.
-/
theorem parseArguments_text (c : CommandName) {rest : List String} {as : List Argument}
    (hsort : sortArguments programFlags rest = .ok as) :
    parseArguments programFlags .rest (c.text :: rest) = .ok ⟨[], some (c.text :: rest), []⟩ := by
  have htake : takeOperands .rest (⟨c.text, .operand⟩ :: as) =
      some (⟨c.text, .operand⟩ :: as, []) := by
    simp [takeOperands, Argument.isOption]
  have htexts : operandTexts .rest (⟨c.text, .operand⟩ :: as) = c.text :: rest := by
    rw [← texts_of_sortArguments hsort]
    rfl
  unfold parseArguments
  rw [sortArguments_text, hsort]
  simp only [Except.map, mapError_ok, bind, Except.bind, List.length_cons]
  rw [useArguments]
  simp only [Parsed.start, Option.isNone_none, if_true, htake, htexts]
  rfl

theorem CommandName.ofText?_eq_some_iff {c : CommandName} :
    ofText? name = some c ↔ c.text = name := by
  constructor
  · intro h
    simpa using List.find?_some h
  · rintro rfl
    cases c <;> decide

/-- A command line that is accepted is the text of a command with arguments behind it. The command
reads them alone; the program only has to know what they are. -/
theorem readRequest_eq_ok_iff {args : List String} {r : Request} :
    readRequest args = .ok r ↔ ∃ c rest as q, args = CommandName.text c :: rest ∧
      sortArguments programFlags rest = .ok as ∧
      parseArguments c.flags c.operandCount rest = .ok q ∧ q.extras = [] ∧ c.request q = .ok r := by
  constructor
  · intro h
    -- the first reading takes the name of the command, the second one its options and operands
    obtain ⟨p, hp, h⟩ := bind_eq_ok_iff.1 h
    rw [mapError_eq_ok_iff] at hp
    split at h
    · cases h
    · cases h
    · next name rest hoperands =>
      split at h
      · cases h
      · next c hc =>
        rw [CommandName.ofText?_eq_some_iff] at hc
        obtain ⟨q, hq, h⟩ := bind_eq_ok_iff.1 h
        obtain ⟨r', hr, h⟩ := bind_eq_ok_iff.1 h
        rw [mapError_eq_ok_iff] at hq hr
        split at h
        · next hextras =>
          cases h
          obtain ⟨hp', hq'⟩ := List.append_eq_nil_iff.1 (List.isEmpty_iff.1 hextras)
          have hargs := of_parseArguments_program hp hoperands hp'
          obtain ⟨as, hsort, -⟩ := bind_eq_ok_iff.1 hp
          rw [mapError_eq_ok_iff, hargs, ← hc, sortArguments_text] at hsort
          obtain ⟨as, hsort, -⟩ := map_eq_ok_iff.1 hsort
          exact ⟨c, rest, as, q, hc ▸ hargs, hsort, hq, hq', hr⟩
        · cases h
  · rintro ⟨c, rest, as, q, rfl, hsort, hq, hextras, hr⟩
    unfold readRequest
    rw [parseArguments_text c hsort]
    simp only [mapError_ok, bind, Except.bind, CommandName.ofText?_eq_some_iff.2 rfl, hq, hr,
      hextras]
    rfl

/-! ## Asking for a log -/

namespace Request

/-- The request with a log, if its command keeps one. -/
def verbosely? : Request → Option Request
  | .eval place rule data settings date _ => some (.eval place rule data settings date true)
  | .check place names json _ => some (.check place names json true)
  | .validate _ => none

end Request

/-- The command line with `-v` behind the command. -/
def addVerbose : List String → List String
  | [] => []
  | command :: rest => command :: "-v" :: rest

/-- What a command makes of its arguments behind the option for a log. -/
theorem request_behind_verbose (c : CommandName) (q : Parsed) :
    c.request (q.behind [⟨"--verbose", none⟩] []) =
      (c.request q).map fun r => r.verbosely?.getD r := by
  have hvalues (name : String) (hname : "--verbose" ≠ name) :
      (q.behind [⟨"--verbose", none⟩] []).valuesOf name = q.valuesOf name := by
    simp [Parsed.behind, Parsed.valuesOf, hname]
  have hplace : (q.behind [⟨"--verbose", none⟩] []).place = q.place := by
    unfold Parsed.place Parsed.value?
    rw [hvalues _ (by decide), hvalues _ (by decide)]
  have hhas (name : String) : (q.behind [⟨"--verbose", none⟩] []).has name =
      (decide ("--verbose" = name) || q.has name) := rfl
  have hoperands : (q.behind [⟨"--verbose", none⟩] []).operands = q.operands := rfl
  cases c with
  | eval =>
    unfold CommandName.request
    dsimp only
    rw [hoperands, hplace, hvalues "--set" (by decide), hvalues "--env" (by decide),
      Parsed.value?, hvalues "--date" (by decide), hhas]
    split <;> rfl
  | check =>
    unfold CommandName.request
    dsimp only
    rw [hoperands, hplace, hhas, hhas]
    rfl
  | validate =>
    unfold CommandName.request
    dsimp only
    rw [hplace]
    rfl

/-- With `-v` in front, arguments say what they said and that a log is asked for. -/
theorem parseArguments_verbose {rest : List String} {q : Parsed}
    (hrole : roleOf flags "-v" = .ok (.option verboseFlag "-v" none))
    (h : parseArguments flags count rest = .ok q) :
    parseArguments flags count ("-v" :: rest) = .ok (q.behind [⟨"--verbose", none⟩] []) := by
  obtain ⟨as, hsort, h⟩ := bind_eq_ok_iff.1 h
  rw [mapError_eq_ok_iff] at hsort
  have hgive : Parsed.start.giveAll [verboseFlag] =
      .ok (Parsed.start.behind [⟨"--verbose", none⟩] []) := by decide
  have huse : useArguments flags count (as.length + 2)
      (⟨"-v", .option verboseFlag "-v" none⟩ :: as) .start =
        useArguments flags count (as.length + 1) as
          (Parsed.start.behind [⟨"--verbose", none⟩] []) := by
    rw [useArguments]
    exact congrArg (fun x => x >>= useArguments flags count (as.length + 1) as) hgive
  unfold parseArguments
  rw [sortArguments, if_neg (by decide), hrole, hsort]
  refine huse.trans ?_
  rw [Oblivious.useArguments, h]
  rfl

/-- One more `-v` behind the command asks for a log, and changes nothing else of a request. -/
theorem readRequest_addVerbose {args : List String} {r r' : Request}
    (h : readRequest args = .ok r) (hr : r.verbosely? = some r') :
    readRequest (addVerbose args) = .ok r' := by
  obtain ⟨c, rest, as, q, rfl, hsort, hq, hextras, hrequest⟩ := readRequest_eq_ok_iff.1 h
  refine readRequest_eq_ok_iff.2 ⟨c, "-v" :: rest, ⟨"-v", .unknown⟩ :: as,
    q.behind [⟨"--verbose", none⟩] [], rfl, ?_, ?_, hextras, ?_⟩
  · have hrole : roleOf programFlags "-v" = .ok .unknown := by decide
    rw [sortArguments, if_neg (by decide), hrole, hsort]
    rfl
  · have hrole : roleOf c.flags "-v" = .ok (.option verboseFlag "-v" none) := by
      cases c with
      | eval | check => decide
      | validate =>
        cases hrequest
        cases hr
    exact parseArguments_verbose hrole hq
  · rw [request_behind_verbose, hrequest]
    simp [Except.map, hr]

end Verdict.Command
