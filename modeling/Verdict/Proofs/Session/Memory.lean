import Verdict.Session.Basic
/-!
# Sessions in memory

The tables of a session are values, so that an evaluator could not see a later change if it wanted
to. Here they are cells that are written in place: the caller's data are in the first cell and stay
there, an evaluator knows the cells of its tables, and all that keeps it from the caller's changes
is that it was given copies. `SharedSession.run_mirrors` says that this makes no difference: step by
step the answers are those of the session with values.
-/

namespace Verdict

/-- An evaluator whose tables are in memory. -/
structure Held where
  /-- The place of the data. -/
  data : Nat
  /-- Today's date. -/
  today : Date
  /-- The place of the settings. -/
  env : Nat

namespace Held

/-- What an evaluator reads in memory. -/
def evaluator (data : List (Table Value)) (texts : List (Table String)) (h : Held) : Evaluator :=
  ⟨data.getD h.data .empty, h.today, .ofTable (texts.getD h.env .empty)⟩

/-- Whether an evaluator has tables of its own among the given numbers of cells: the caller does not
write to the cell of its data. -/
structure Owns (dataCells textCells : Nat) (h : Held) : Prop where
  /-- The data are not the caller's. -/
  apart : 0 < h.data
  /-- The data are in memory. -/
  data : h.data < dataCells
  /-- The settings are in memory. -/
  env : h.env < textCells

variable {h : Held} {data : List (Table Value)} {texts : List (Table String)}

/-- Writing to the caller's cell is not seen by an evaluator that has its own. -/
theorem evaluator_modify (howns : h.Owns data.length texts.length) (f : Table Value → Table Value) :
    h.evaluator (data.modify 0 f) texts = h.evaluator data texts := by
  have hne : 0 ≠ h.data := Nat.ne_of_lt howns.apart
  simp only [evaluator, List.getD_eq_getElem?_getD, List.getElem?_modify, if_neg hne, id_map']

/-- New cells are not seen by an evaluator that was there before. -/
theorem evaluator_append (howns : h.Owns data.length texts.length) (t : Table Value)
    (u : Table String) : h.evaluator (data ++ [t]) (texts ++ [u]) = h.evaluator data texts := by
  simp only [evaluator, List.getD_eq_getElem?_getD, List.getElem?_append_left howns.data,
    List.getElem?_append_left howns.env]

/-- An evaluator is within a memory that has grown. -/
theorem Owns.append (howns : h.Owns data.length texts.length) (t : Table Value) (u : Table String) :
    h.Owns (data ++ [t]).length (texts ++ [u]).length where
  apart := howns.apart
  data := Nat.lt_of_lt_of_le howns.data (by simp)
  env := Nat.lt_of_lt_of_le howns.env (by simp)

end Held

/-- A session whose tables are in memory. The caller's data are at the first place. -/
structure SharedSession where
  /-- Tables of data. -/
  data : List (Table Value)
  /-- Tables of settings. -/
  texts : List (Table String)
  /-- The caller's settings. -/
  settings : List (Value × Value)
  /-- How often the clock was asked. -/
  asked : Nat
  /-- How many random bits were taken. -/
  drawn : Nat
  /-- The evaluators in the order in which they were made. -/
  held : List Held
  /-- The number of the current one. -/
  current : Nat

namespace SharedSession

/-- A caller with data and settings who has done nothing yet. -/
def start (data : Table Value) (settings : List (Value × Value)) : SharedSession :=
  ⟨[data], [], settings, 0, 0, [], 0⟩

/-- What an evaluator reads in memory now. -/
def read (m : SharedSession) (h : Held) : Evaluator := h.evaluator m.data m.texts

/-- The session after the current evaluator has been asked. -/
def ask {ε : Type} (m : SharedSession) (bits : Bits)
    (question : Evaluator → Bits → Outcome ε Bool)
    (wrap : Except (Failure ε) Bool → StepResult) : SharedSession × StepAnswer :=
  match m.held[m.current]? with
  | none => (m, ⟨.failed none, []⟩)
  | some h =>
    let o := question (m.read h) (bits.from m.drawn)
    ({ m with drawn := m.drawn + o.drawn }, ⟨wrap o.result, o.log⟩)

/-- The session after a step, and the step's answer. A new evaluator gets a copy of the caller's
data and a table of its own for the settings; the caller's data are written in place. -/
def step (clock : Nat → Date) (bits : Bits) (m : SharedSession) :
    Step → SharedSession × StepAnswer
  | .make =>
    match Settings.said m.settings with
    | .error f => (m, ⟨.failed (some f), []⟩)
    | .ok given =>
      ({ m with
          data := m.data ++ [m.data.getD 0 .empty]
          texts := m.texts ++ [.ofList given]
          asked := m.asked + 1
          held := m.held ++ [⟨m.data.length, clock m.asked, m.texts.length⟩]
          current := m.held.length },
        ⟨.index m.held.length, []⟩)
  | .use index => ({ m with current := index }, ⟨.index index, []⟩)
  | .setData key value =>
    ({ m with data := m.data.modify 0 fun t => t.insert key value }, ⟨.silent, []⟩)
  | .eraseData key => ({ m with data := m.data.modify 0 fun t => t.erase key }, ⟨.silent, []⟩)
  | .setSetting key value =>
    ({ m with settings := Value.putPair key value m.settings }, ⟨.silent, []⟩)
  | .evaluate rule => m.ask bits (fun E => E.evaluate rule) .evaluated
  | .clause text => m.ask bits (fun E => E.evaluateClause text) .evaluated
  | .call name args => m.ask bits (fun E => E.call name args) .called
  | .assign _ _ =>
    match m.held[m.current]? with
    | none => (m, ⟨.failed none, []⟩)
    | some _ => (m, ⟨.readOnly, []⟩)
  | .context =>
    match m.held[m.current]? with
    | none => (m, ⟨.failed none, []⟩)
    | some h => (m, ⟨.state (m.read h).data (m.read h).today, []⟩)

/-- The session after steps, and their answers in order. -/
def run (clock : Nat → Date) (bits : Bits) (m : SharedSession) :
    List Step → SharedSession × List StepAnswer
  | [] => (m, [])
  | t :: ts =>
    let (m, a) := m.step clock bits t
    let (m, as) := m.run clock bits ts
    (m, a :: as)

/-- Whether a session in memory is what a session with values is. -/
structure Mirrors (m : SharedSession) (s : Session) : Prop where
  /-- The caller's data are at the first place. -/
  data : m.data[0]? = some s.data
  /-- The caller's settings are the same. -/
  settings : m.settings = s.settings
  /-- The clock was asked as often. -/
  asked : m.asked = s.asked
  /-- As many bits were taken. -/
  drawn : m.drawn = s.drawn
  /-- The evaluators are those that are read in memory. -/
  evaluators : s.evaluators = m.held.map m.read
  /-- Every evaluator has tables of its own. -/
  owns : ∀ h ∈ m.held, h.Owns m.data.length m.texts.length
  /-- The current one has the same number. -/
  current : m.current = s.current

variable {m : SharedSession} {s : Session}

theorem start_mirrors (data : Table Value) (settings : List (Value × Value)) :
    (start data settings).Mirrors (.start data settings) :=
  ⟨rfl, rfl, rfl, rfl, rfl, nofun, rfl⟩

/-- The caller's writing changes the caller's data and no evaluator. -/
theorem Mirrors.modify (hm : m.Mirrors s) (f : Table Value → Table Value) :
    Mirrors { m with data := m.data.modify 0 f } { s with data := f s.data } where
  data := by simp [hm.data]
  settings := hm.settings
  asked := hm.asked
  drawn := hm.drawn
  evaluators := by
    rw [hm.evaluators]
    exact List.map_congr_left fun h hh => (Held.evaluator_modify (hm.owns h hh) f).symm
  owns h hh := by
    rw [List.length_modify]
    exact hm.owns h hh
  current := hm.current

/-- The current evaluator is the one that is read where the current one is held. -/
theorem Mirrors.getElem?_current (hm : m.Mirrors s) :
    s.evaluators[s.current]? = m.held[m.current]?.map m.read := by
  rw [hm.evaluators, ← hm.current, List.getElem?_map]

/-! ## Steps and runs -/

section Runs

variable (clock : Nat → Date) (bits : Bits)

/-- A new evaluator holds a copy of the caller's data. -/
theorem make_mirrors (hm : m.Mirrors s) :
    (m.step clock bits .make).2 = (s.step clock bits .make).2 ∧
      (m.step clock bits .make).1.Mirrors (s.step clock bits .make).1 := by
  have hlength : m.held.length = s.evaluators.length := by
    rw [hm.evaluators, List.length_map]
  have hcaller : m.data.getD 0 .empty = s.data := by
    rw [List.getD_eq_getElem?_getD, hm.data, Option.getD_some]
  have hpos : 0 < m.data.length := (List.getElem?_eq_some_iff.1 hm.data).1
  cases hgiven : Settings.said s.settings with
  | error f =>
    simp only [step, Session.step, Settings.ofEntries, hm.settings, hgiven, Except.map]
    exact ⟨trivial, hm⟩
  | ok given =>
    simp only [step, Session.step, Settings.ofEntries, hm.settings, hgiven, Except.map]
    refine ⟨by rw [hlength], ?_⟩
    constructor
    case data => rw [List.getElem?_append_left hpos, hm.data]
    case settings => rfl
    case asked => exact congrArg (· + 1) hm.asked
    case drawn => exact hm.drawn
    case current => exact hlength
    case evaluators =>
      -- the old evaluators read what they read before, and the new one the two last cells
      have hold : m.held.map m.read =
          m.held.map (Held.evaluator (m.data ++ [s.data]) (m.texts ++ [.ofList given])) :=
        List.map_congr_left fun h hh => (Held.evaluator_append (hm.owns h hh) _ _).symm
      have hnew : Held.evaluator (m.data ++ [s.data]) (m.texts ++ [.ofList given])
          ⟨m.data.length, clock m.asked, m.texts.length⟩ =
            .make s.data (.fixed (clock s.asked)) (.given (.ofList given)) (clock s.asked)
              .empty := by
        simp [Held.evaluator, hm.asked, Evaluator.make, Clock.today, Settings.lookup]
      rw [List.map_append, List.map_singleton, hm.evaluators, hold, hcaller]
      exact congrArg (fun E => _ ++ [E]) hnew.symm
    case owns =>
      intro h hh
      rcases List.mem_append.1 hh with hh | hh
      · exact (hm.owns h hh).append _ _
      · rw [List.mem_singleton.1 hh]
        exact ⟨hpos, by simp, by simp⟩

/-- A question is put to the same evaluator. -/
theorem ask_mirrors {ε : Type} (hm : m.Mirrors s) (question : Evaluator → Bits → Outcome ε Bool)
    (wrap : Except (Failure ε) Bool → StepResult) :
    (m.ask bits question wrap).2 = (s.ask bits question wrap).2 ∧
      (m.ask bits question wrap).1.Mirrors (s.ask bits question wrap).1 := by
  unfold ask Session.ask
  rw [hm.getElem?_current]
  cases m.held[m.current]? with
  | none => exact ⟨rfl, hm⟩
  | some h =>
    simp only [Option.map_some, hm.drawn]
    exact ⟨trivial, ⟨hm.data, hm.settings, hm.asked, rfl, hm.evaluators, hm.owns, hm.current⟩⟩

/-- A step on written memory has the answer of the step on values, and they still mirror each other.
-/
theorem step_mirrors (hm : m.Mirrors s) (t : Step) :
    (m.step clock bits t).2 = (s.step clock bits t).2 ∧
      (m.step clock bits t).1.Mirrors (s.step clock bits t).1 := by
  -- what is assigned or read through a handle leaves the cells of the evaluators alone
  cases t with
  | make => exact make_mirrors clock bits hm
  | use index =>
    exact ⟨rfl, ⟨hm.data, hm.settings, hm.asked, hm.drawn, hm.evaluators, hm.owns, rfl⟩⟩
  | setData key value => exact ⟨rfl, hm.modify fun t => t.insert key value⟩
  | eraseData key => exact ⟨rfl, hm.modify fun t => t.erase key⟩
  | setSetting key value =>
    refine ⟨rfl, ⟨hm.data, ?_, hm.asked, hm.drawn, hm.evaluators, hm.owns, hm.current⟩⟩
    exact congrArg (Value.putPair key value) hm.settings
  | evaluate rule => exact ask_mirrors bits hm (fun E => E.evaluate rule) .evaluated
  | clause text => exact ask_mirrors bits hm (fun E => E.evaluateClause text) .evaluated
  | call name args => exact ask_mirrors bits hm (fun E => E.call name args) .called
  | assign key value =>
    simp only [step, Session.step, hm.getElem?_current]
    cases m.held[m.current]? with
    | none => exact ⟨rfl, hm⟩
    | some h => exact ⟨rfl, hm⟩
  | context =>
    simp only [step, Session.step, hm.getElem?_current]
    cases m.held[m.current]? with
    | none => exact ⟨rfl, hm⟩
    | some h => exact ⟨rfl, hm⟩

/-- A session in memory and one with values have the same answers from then on. -/
theorem run_mirrors (hm : m.Mirrors s) (ts : List Step) :
    (m.run clock bits ts).2 = (s.run clock bits ts).2 ∧
      (m.run clock bits ts).1.Mirrors (s.run clock bits ts).1 := by
  induction ts generalizing m s with
  | nil => exact ⟨rfl, hm⟩
  | cons t ts ih =>
    obtain ⟨hanswer, hstep⟩ := step_mirrors clock bits hm t
    obtain ⟨hanswers, hrun⟩ := ih hstep
    refine ⟨?_, hrun⟩
    rw [run, Session.run]
    simp only [hanswer, hanswers]

end Runs

end SharedSession

end Verdict
