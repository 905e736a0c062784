import Verdict.Evaluator.Basic
import Verdict.Proofs.Evaluator.LongValue
/-!
# What a predicate answers

A predicate ends in an answer, in an error of its own, or in a fault. Which of the three it is
depends on the family of the predicate and on its arguments, never on the random bit. Faults are
about the digit limit, but for those of the lookup of settings, which are its own. `Answers` and
`Overruns` are the rules for the first and the last, one for each family, and `answer_isOk_iff` and
`answer_eq_fault_iff` say that they are exact; an error is what is left. No error of a predicate is
that there is no such predicate (`answer_ne_unknownName`).
-/

namespace Verdict

open Text

/-! ## Families of predicates -/

namespace Predicate

/-- What the predicates of a family do with their arguments. -/
inductive Family where
  /-- They take none. -/
  | bare
  /-- The arguments name parts of the calendar. -/
  | calendar (part : CalendarPart)
  /-- The argument is a key that may be missing. -/
  | presence
  /-- The arguments are a key and a literal, which are compared for equality. -/
  | equality
  /-- The arguments are a key and a literal, which are ordered. -/
  | order
  /-- The arguments are the name of a setting and texts. -/
  | setting
  deriving DecidableEq, Repr

/-- The family of a predicate. -/
def family : Predicate → Family
  | .always | .never | .random | .sometimes | .weekday | .weekend => .bare
  | .days => .calendar .day
  | .months => .calendar .month
  | .present => .presence
  | .eq | .neq => .equality
  | .lt | .lte | .gt | .gte => .order
  | .env => .setting

end Predicate

/-! ## Reading weekdays and months -/

namespace CalendarPart

/-- Whether an argument is a number of more ASCII digits than the limit. -/
def IsLongNumber (argument : String) : Prop :=
  (trimChars argument.toList).all isAsciiDigit = true ∧
    digitLimit < (trimChars argument.toList).length

/-- Whether an argument names a weekday or a month. -/
def Reads (part : CalendarPart) (argument : String) : Prop := ∃ n, part.read argument = .ok n

/-- Lowering letters neither makes nor unmakes a digit. -/
theorem isAsciiDigit_toLower (c : Char) : isAsciiDigit c.toLower = isAsciiDigit c := by
  unfold Char.toLower
  split
  · next h =>
    -- an upper-case letter is no digit, and its lower-case letter, 32 places on, is none either
    have hA : 65 ≤ c.val.toNat := h.1
    have hZ : c.val.toNat ≤ 90 := h.2
    have hsum : (c.val + ('a'.val - 'A'.val)).toNat = c.val.toNat + 32 := by
      rw [UInt32.toNat_add, Nat.mod_eq_of_lt]
      · rfl
      · exact Nat.lt_of_le_of_lt (Nat.add_le_add_right hZ _) (by decide)
    have hupper : isAsciiDigit c = false := by
      simp only [isAsciiDigit, Char.toNat, Bool.and_eq_false_iff, decide_eq_false_iff_not]
      omega
    rw [hupper]
    simp only [isAsciiDigit, Char.toNat, hsum, Bool.and_eq_false_iff, decide_eq_false_iff_not]
    omega
  · rfl

/-- Reading an argument meets the limit exactly at a number of too many digits. -/
theorem read_eq_fault_iff {part : CalendarPart} {argument : String} {f : Fault} :
    part.read argument = .error (.fault f) ↔
      IsLongNumber argument ∧ f = .longNumeral (trimChars argument.toList).length := by
  have hlower : isAsciiDigit ∘ Char.toLower = isAsciiDigit := funext isAsciiDigit_toLower
  unfold read IsLongNumber
  simp only [toList_lowered, toList_trim, List.all_map, List.isEmpty_map, List.length_map, hlower]
  generalize trimChars argument.toList = cs
  by_cases hdigits : cs.all isAsciiDigit = true
  · by_cases hlong : digitLimit < cs.length
    · have hcs : cs.isEmpty = false := by cases cs <;> simp at hlong ⊢
      simp only [hdigits, hlong, hcs, Bool.not_false, Bool.and_self, if_true, Except.error.injEq,
        Failure.fault.injEq, and_self, true_and, eq_comm]
    · simp only [hdigits, hlong, and_false, false_and, iff_false, if_false]
      repeat' split
      all_goals simp only [reduceCtorEq, not_false_eq_true, Except.error.injEq]
  · simp only [hdigits, Bool.and_false, Bool.false_eq_true, false_and, iff_false, if_false]
    split <;> simp only [reduceCtorEq, not_false_eq_true, Except.error.injEq]

/-- The errors of reading an argument: a number out of range, or a text that is no name. -/
theorem read_eq_declared {part : CalendarPart} {argument : String} {e : PredicateError}
    (h : part.read argument = .error (.declared e)) :
    (∃ n, e = .outOfRange part.label part.last n) ∨ e = .unrecognized part.label argument := by
  unfold read at h
  simp only at h
  repeat' split at h
  all_goals cases h
  · exact .inl ⟨_, rfl⟩
  · exact .inr rfl

/-- Reading arguments fails as the first one that names nothing does. -/
theorem readAll_eq_error_iff {part : CalendarPart} {args : List String}
    {e : Failure PredicateError} :
    part.readAll args = .error e ↔ ∃ before token after, args = before ++ token :: after ∧
      (∀ a ∈ before, part.Reads a) ∧ part.read token = .error e := by
  induction args with
  | nil => simp [readAll]
  | cons a as ih =>
    have hrest : ∀ n, (part.readAll as >>= fun ns => pure (n :: ns)) = .error e ↔
        part.readAll as = .error e := by
      intro n
      cases part.readAll as <;> simp [Bind.bind, Except.bind, Pure.pure, Except.pure]
    rw [readAll, bind_eq_error_iff]
    constructor
    -- either the first argument fails, or it is read and a later one fails
    · rintro (h | ⟨n, hn, h⟩)
      · exact ⟨[], a, as, rfl, by simp, h⟩
      · obtain ⟨before, token, after, rfl, hbefore, htoken⟩ := ih.1 ((hrest n).1 h)
        refine ⟨a :: before, token, after, rfl, fun b hb => ?_, htoken⟩
        rcases List.mem_cons.1 hb with rfl | hb
        · exact ⟨n, hn⟩
        · exact hbefore b hb
    · rintro ⟨before, token, after, hargs, hbefore, htoken⟩
      cases before with
      | nil =>
        rw [List.nil_append, List.cons.injEq] at hargs
        exact .inl (hargs.1 ▸ htoken)
      | cons b before =>
        rw [List.cons_append, List.cons.injEq] at hargs
        obtain ⟨n, hn⟩ := hbefore b List.mem_cons_self
        have htail : ∀ c ∈ before, part.Reads c := fun c hc => hbefore c (List.mem_cons_of_mem b hc)
        have hfails := ih.2 ⟨before, token, after, hargs.2, htail, htoken⟩
        exact .inr ⟨n, hargs.1 ▸ hn, (hrest n).2 hfails⟩

/-- Reading arguments succeeds exactly when each of them names something. -/
theorem readAll_isOk_iff {part : CalendarPart} {args : List String} :
    (∃ ns, part.readAll args = .ok ns) ↔ ∀ a ∈ args, part.Reads a := by
  induction args with
  | nil => simp [readAll]
  | cons a as ih =>
    rw [List.forall_mem_cons, ← ih, Reads]
    simp only [readAll, bind_eq_ok_iff]
    constructor
    · rintro ⟨_, n, hn, ns, hns, -⟩
      exact ⟨⟨n, hn⟩, ns, hns⟩
    · rintro ⟨⟨n, hn⟩, ns, hns⟩
      exact ⟨n :: ns, n, hn, ns, hns, rfl⟩

end CalendarPart

/-! ## Rules for answers and faults -/

namespace Evaluator

variable {E : Evaluator}

/-- The calls that have an answer, by the family of the predicate. -/
inductive Answers (E : Evaluator) : Predicate.Family → List String → Prop
  /-- Nothing is asked for. -/
  | bare : Answers E .bare []
  /-- There are arguments and all of them name something. -/
  | calendar {part : CalendarPart} {args : List String} (given : args ≠ [])
      (reads : ∀ a ∈ args, part.Reads a) : Answers E (.calendar part) args
  /-- There is one key, whether or not it has a value. -/
  | presence (key : String) : Answers E .presence [key]
  /-- The key has a value, which is a number like the literal or can be written. -/
  | equality {key literal : String} {v : Value} (found : E.data.find? key = some v)
      (written : v.HoldsLong → v.ComparesNumbers literal) : Answers E .equality [key, literal]
  /-- The key has a value, which has an order against the literal. -/
  | order {key literal : String} {v : Value} (found : E.data.find? key = some v)
      (ordered : v.HasOrder literal) : Answers E .order [key, literal]
  /-- With fewer than two arguments nothing is looked up. -/
  | few {args : List String} (few : args.length < 2) : Answers E .setting args
  /-- The setting can be looked up, whether or not there is one. -/
  | setting {name : String} {accepted : List String} {current : Option String}
      (looked : E.env.find? name = .ok current) : Answers E .setting (name :: accepted)

/-- The calls that end in a fault, by the family of the predicate. -/
inductive Overruns (E : Evaluator) : Predicate.Family → List String → Fault → Prop
  /-- The first argument that names nothing is a number of too many digits. -/
  | calendar {part : CalendarPart} {args before after : List String} {token : String}
      (split : args = before ++ token :: after) (reads : ∀ a ∈ before, part.Reads a)
      (long : CalendarPart.IsLongNumber token) :
      Overruns E (.calendar part) args (.longNumeral (trimChars token.toList).length)
  /-- The value cannot be written, and is not compared as a number. -/
  | equality {key literal : String} {v : Value} (found : E.data.find? key = some v)
      (long : v.HoldsLong) (text : ¬ v.ComparesNumbers literal) :
      Overruns E .equality [key, literal] .longInteger
  /-- The value is an integer that cannot be written, and the literal is no number. -/
  | order {key literal : String} {n : Int} (found : E.data.find? key = some (.int n))
      (long : longBound ≤ n.natAbs) (text : Number.ofText? literal = none) :
      Overruns E .order [key, literal] .longInteger
  /-- The setting cannot be looked up. -/
  | setting {name : String} {accepted : List String} {f : Fault} (asked : accepted ≠ [])
      (fails : E.env.find? name = .error f) : Overruns E .setting (name :: accepted) f

/-! ## Families without a context -/

/-- A predicate without arguments has an answer exactly if it is given none. -/
theorem withCount_isOk_iff {q : Predicate} {args : List String} {x : Bool} :
    (∃ b, withCount q 0 args (.ok x) = .ok b) ↔ E.Answers .bare args := by
  unfold withCount
  split
  · next h =>
    rw [List.length_eq_zero_iff] at h
    exact ⟨fun _ => h ▸ .bare, fun _ => ⟨x, rfl⟩⟩
  · next h =>
    refine ⟨fun ⟨_, hb⟩ => (nomatch hb), fun ha => ?_⟩
    cases ha
    exact absurd rfl h

theorem withCount_ne_fault {q : Predicate} {args : List String} {x : Bool} {f : Fault} :
    withCount q 0 args (.ok x) ≠ .error (.fault f) := by
  unfold withCount
  split <;> exact nofun

/-- A predicate of the calendar has an answer exactly if it is given arguments and all are read. -/
theorem among_isOk_iff {q : Predicate} {part : CalendarPart} {n : Nat} {args : List String} :
    (∃ b, among q part n args = .ok b) ↔ E.Answers (.calendar part) args := by
  have hreads : (∃ b, (part.readAll args).map (fun ns => ns.contains n) = .ok b) ↔
      ∀ a ∈ args, part.Reads a := by
    rw [← CalendarPart.readAll_isOk_iff]
    cases part.readAll args <;> simp [Except.map]
  unfold among
  cases args with
  | nil => exact ⟨fun ⟨_, hb⟩ => (nomatch hb), fun ha => by cases ha; contradiction⟩
  | cons a as =>
    rw [List.isEmpty_cons, if_neg Bool.false_ne_true, hreads]
    refine ⟨.calendar (List.cons_ne_nil a as), fun ha => ?_⟩
    cases ha with
    | calendar _ reads => exact reads

/-- A predicate of the calendar overruns the limit at the first argument that is not read. -/
theorem among_eq_fault_iff {q : Predicate} {part : CalendarPart} {n : Nat} {args : List String}
    {f : Fault} : among q part n args = .error (.fault f) ↔ E.Overruns (.calendar part) args f := by
  have hreads : (part.readAll args).map (fun ns => ns.contains n) = .error (.fault f) ↔
      E.Overruns (.calendar part) args f := by
    rw [map_eq_error_iff, CalendarPart.readAll_eq_error_iff]
    simp only [CalendarPart.read_eq_fault_iff]
    constructor
    · rintro ⟨before, token, after, hsplit, reads, long, rfl⟩
      exact .calendar hsplit reads long
    · intro h
      cases h with
      | calendar split reads long => exact ⟨_, _, _, split, reads, long, rfl⟩
  unfold among
  cases args with
  | nil =>
    refine ⟨nofun, fun h => ?_⟩
    cases h with
    | calendar split _ _ => exact absurd split.symm (by simp)
  | cons a as => rw [List.isEmpty_cons, if_neg Bool.false_ne_true, hreads]

/-! ## Families that read the data -/

/-- Apart from a missing key and a wrong number of arguments, a comparison ends as that of the value
of the key with the literal. -/
theorem comparing_eq_iff {q : Predicate} {args : List String} {compare : Value → String → Answer}
    {r : Answer} (hkey : ∀ key, r ≠ .error (.declared (.missingKey key)))
    (hcount : ∀ n, r ≠ .error (.declared (.wrongCount q.name 2 n))) :
    E.comparing q args compare = r ↔ ∃ key literal v, args = [key, literal] ∧
      E.data.find? key = some v ∧ compare v literal = r := by
  unfold comparing withValue
  split
  · next key literal =>
    cases hv : E.data.find? key with
    | none =>
      refine ⟨fun h => absurd h.symm (hkey key), ?_⟩
      rintro ⟨key', literal', v, hargs, hv', -⟩
      cases hargs
      rw [hv] at hv'
      cases hv'
    | some v =>
      refine ⟨fun h => ⟨key, literal, v, rfl, hv, h⟩, ?_⟩
      rintro ⟨key', literal', v', hargs, hv', h⟩
      cases hargs
      rw [hv] at hv'
      cases hv'
      exact h
  · next hargs =>
    refine ⟨fun h => absurd h.symm (hcount _), ?_⟩
    rintro ⟨key, literal, v, rfl, -, -⟩
    exact absurd rfl (hargs key literal)

/-- A comparison has an answer exactly when the values it is made for do. -/
theorem comparing_isOk_iff {q : Predicate} {args : List String}
    {compare : Value → String → Answer} :
    (∃ b, E.comparing q args compare = .ok b) ↔ ∃ key literal v, args = [key, literal] ∧
      E.data.find? key = some v ∧ ∃ b, compare v literal = .ok b := by
  constructor
  · rintro ⟨b, hb⟩
    obtain ⟨key, literal, v, hargs, hv, h⟩ := (comparing_eq_iff (r := .ok b) nofun nofun).1 hb
    exact ⟨key, literal, v, hargs, hv, b, h⟩
  · rintro ⟨key, literal, v, hargs, hv, b, h⟩
    exact ⟨b, (comparing_eq_iff (r := .ok b) nofun nofun).2 ⟨key, literal, v, hargs, hv, h⟩⟩

/-- Asking for equality has an answer unless the value has to be written and cannot be. -/
theorem comparing_equality_isOk_iff {q : Predicate} {args : List String}
    {compare : Value → String → Answer}
    (hcompare : ∀ v literal, (∃ b, compare v literal = .ok b) ↔ ∃ b, v.equals literal = .ok b) :
    (∃ b, E.comparing q args compare = .ok b) ↔ E.Answers .equality args := by
  rw [comparing_isOk_iff]
  simp only [hcompare, (Value.equals_failsOnly _ _).isOk_iff, not_and, Classical.not_not]
  constructor
  · rintro ⟨key, literal, v, rfl, hv, written⟩
    exact .equality hv written
  · intro h
    cases h with
    | equality found written => exact ⟨_, _, _, rfl, found, written⟩

/-- A comparison by equality overruns the limit where what is stored has to be written. -/
theorem comparing_equality_eq_fault_iff {q : Predicate} {args : List String}
    {compare : Value → String → Answer} {f : Fault}
    (hcompare : ∀ v literal, compare v literal = .error (.fault f) ↔ v.equals literal = .error f) :
    E.comparing q args compare = .error (.fault f) ↔ E.Overruns .equality args f := by
  rw [comparing_eq_iff (r := .error (.fault f)) nofun nofun]
  simp only [hcompare, Value.equals_failsOnly _ _ f]
  constructor
  · rintro ⟨key, literal, v, rfl, hv, rfl, long, text⟩
    exact .equality hv long text
  · intro h
    cases h with
    | equality found long text => exact ⟨_, _, _, rfl, found, rfl, long, text⟩

/-- Asking for an order has an answer exactly when there is an order, whichever of its outcomes are
accepted. -/
theorem comparing_order_isOk_iff {q : Predicate} {args : List String} {accept : Ordering → Bool} :
    (∃ b, E.comparing q args (ordered accept) = .ok b) ↔ E.Answers .order args := by
  have hordered : ∀ v literal, (∃ b, ordered accept v literal = .ok b) ↔ v.HasOrder literal := by
    intro v literal
    rw [← Value.order_isOk_iff, ordered]
    cases v.order literal <;> simp
  rw [comparing_isOk_iff]
  simp only [hordered]
  constructor
  · rintro ⟨key, literal, v, rfl, hv, order⟩
    exact .order hv order
  · intro h
    cases h with
    | order found order => exact ⟨_, _, _, rfl, found, order⟩

/-- A comparison by order overruns the limit where the error for the stored value cannot show it. -/
theorem comparing_order_eq_fault_iff {q : Predicate} {args : List String}
    {accept : Ordering → Bool} {f : Fault} :
    E.comparing q args (ordered accept) = .error (.fault f) ↔ E.Overruns .order args f := by
  have hordered : ∀ v literal, ordered accept v literal = .error (.fault f) ↔
      v.order literal = .error (.fault f) := by
    intro v literal
    rw [ordered]
    rcases v.order literal with (e | g) | o <;> simp
  rw [comparing_eq_iff (r := .error (.fault f)) nofun nofun]
  simp only [hordered, Value.order_eq_fault_iff]
  constructor
  · rintro ⟨key, literal, v, rfl, hv, rfl, text, n, rfl, long⟩
    exact .order hv long text
  · intro h
    cases h with
    | order found long text => exact ⟨_, _, _, rfl, found, rfl, text, _, rfl, long⟩

/-! ## Settings -/

/-- With two or more arguments the first one is looked up, and the others are what it may be. -/
theorem settingAmong_cons {name : String} {accepted : List String} (asked : accepted ≠ []) :
    E.settingAmong (name :: accepted) =
      (E.env.find? name).map fun current => current.any accepted.contains := by
  obtain ⟨a, rest, rfl⟩ := List.exists_cons_of_ne_nil asked
  rfl

theorem eq_nil_of_few {name : String} {accepted : List String}
    (few : (name :: accepted).length < 2) : accepted = [] :=
  List.length_eq_zero_iff.1 (Nat.lt_one_iff.1 (Nat.lt_of_succ_lt_succ few))

theorem settingAmong_of_few {args : List String} (few : args.length < 2) :
    E.settingAmong args = .ok false := by
  match args, few with
  | [], _ | [_], _ => rfl

/-- There are fewer than two arguments, or a name and what its setting may be. -/
theorem few_or_asked (args : List String) :
    args.length < 2 ∨ ∃ name accepted, args = name :: accepted ∧ accepted ≠ [] := by
  match args with
  | [] | [_] => exact .inl (by simp)
  | name :: a :: rest => exact .inr ⟨name, a :: rest, rfl, List.cons_ne_nil a rest⟩

/-- A predicate of settings has an answer exactly if it asks for none, or the lookup answers. -/
theorem settingAmong_isOk_iff {args : List String} :
    (∃ b, E.settingAmong args = .ok b) ↔ E.Answers .setting args := by
  rcases few_or_asked args with few | ⟨name, accepted, rfl, asked⟩
  · exact iff_of_true ⟨false, settingAmong_of_few few⟩ (.few few)
  · simp only [settingAmong_cons asked, map_eq_ok_iff]
    constructor
    · rintro ⟨b, current, looked, -⟩
      exact .setting looked
    · intro h
      cases h with
      | few few => exact absurd (eq_nil_of_few few) asked
      | setting looked => exact ⟨_, _, looked, rfl⟩

/-- A predicate of settings fails as the lookup does. -/
theorem settingAmong_eq_error_iff {args : List String} {f : Fault} :
    E.settingAmong args = .error f ↔ E.Overruns .setting args f := by
  rcases few_or_asked args with few | ⟨name, accepted, rfl, asked⟩
  · rw [settingAmong_of_few few]
    refine iff_of_false nofun fun h => ?_
    cases h with
    | setting asked _ => exact asked (eq_nil_of_few few)
  · rw [settingAmong_cons asked, map_eq_error_iff]
    constructor
    · exact .setting asked
    · intro h
      cases h with
      | setting _ fails => exact fails

/-! ## Every predicate -/

/-- A predicate has an answer exactly by the rules of its family. -/
theorem answer_isOk_iff {p : Predicate} {args : List String} {bit : Bool} :
    (∃ b, E.answer p args bit = .ok b) ↔ E.Answers p.family args := by
  cases p with
  | always | never | random | sometimes | weekday | weekend => exact withCount_isOk_iff
  | days | months => exact among_isOk_iff
  | present =>
    match args with
    | [key] => exact ⟨fun _ => .presence key, fun _ => ⟨_, rfl⟩⟩
    | [] | _ :: _ :: _ => exact ⟨fun ⟨_, h⟩ => (nomatch h), fun h => (nomatch h)⟩
  | eq =>
    refine comparing_equality_isOk_iff fun v literal => ?_
    simp only [equalTo, orFault_eq_ok_iff]
  | neq =>
    -- negating the answer makes no difference to whether there is one
    refine comparing_equality_isOk_iff fun v literal => ?_
    simp only [equalTo, map_eq_ok_iff, orFault_eq_ok_iff]
    exact ⟨fun ⟨_, b, h, _⟩ => ⟨b, h⟩, fun ⟨b, h⟩ => ⟨!b, b, h, rfl⟩⟩
  | lt | lte | gt | gte => exact comparing_order_isOk_iff
  | env =>
    simp only [answer, orFault_eq_ok_iff]
    exact settingAmong_isOk_iff

/-- A predicate ends in a fault exactly by the rules of its family. -/
theorem answer_eq_fault_iff {p : Predicate} {args : List String} {bit : Bool} {f : Fault} :
    E.answer p args bit = .error (.fault f) ↔ E.Overruns p.family args f := by
  cases p with
  | always | never | random | sometimes | weekday | weekend =>
    exact ⟨fun h => absurd h withCount_ne_fault, fun h => (nomatch h)⟩
  | days | months => exact among_eq_fault_iff
  | present =>
    match args with
    | [key] => exact ⟨fun h => (nomatch h), fun h => (nomatch h)⟩
    | [] | _ :: _ :: _ => exact ⟨fun h => (nomatch h), fun h => (nomatch h)⟩
  | eq => exact comparing_equality_eq_fault_iff fun _ _ => orFault_eq_fault_iff
  | neq =>
    refine comparing_equality_eq_fault_iff fun v literal => ?_
    rw [map_eq_error_iff]
    exact orFault_eq_fault_iff
  | lt | lte | gt | gte => exact comparing_order_eq_fault_iff
  | env =>
    rw [answer, orFault_eq_fault_iff]
    exact settingAmong_eq_error_iff

/-! ## What no predicate finds -/

theorem withCount_ne_unknownName {q : Predicate} {args : List String} {x : Bool} {name : String} :
    withCount q 0 args (.ok x) ≠ .error (.declared (.unknownName name)) := by
  unfold withCount
  split <;> exact nofun

theorem among_ne_unknownName {q : Predicate} {part : CalendarPart} {n : Nat} {args : List String}
    {name : String} : among q part n args ≠ .error (.declared (.unknownName name)) := by
  intro h
  unfold among at h
  split at h
  · cases h
  · obtain ⟨_, token, _, -, -, htoken⟩ :=
      CalendarPart.readAll_eq_error_iff.1 (map_eq_error_iff.1 h)
    rcases CalendarPart.read_eq_declared htoken with ⟨_, he⟩ | he <;> cases he

theorem comparing_ne_unknownName {q : Predicate} {args : List String}
    {compare : Value → String → Answer} {name : String}
    (hcompare : ∀ v literal, compare v literal ≠ .error (.declared (.unknownName name))) :
    E.comparing q args compare ≠ .error (.declared (.unknownName name)) := by
  intro h
  obtain ⟨_, literal, v, -, -, hv⟩ :=
    (comparing_eq_iff (r := .error (.declared (.unknownName name))) nofun nofun).1 h
  exact hcompare v literal hv

theorem ordered_ne_unknownName {accept : Ordering → Bool} {v : Value} {literal name : String} :
    ordered accept v literal ≠ .error (.declared (.unknownName name)) := by
  rw [ordered]
  rcases v.order literal with (e | g) | o <;> simp

/-- No predicate finds that there is no predicate. -/
theorem answer_ne_unknownName {p : Predicate} {args : List String} {bit : Bool} {name : String} :
    E.answer p args bit ≠ .error (.declared (.unknownName name)) := by
  cases p with
  | always | never | random | sometimes | weekday | weekend => exact withCount_ne_unknownName
  | days | months => exact among_ne_unknownName
  | present =>
    match args with
    | [_] => simp [answer]
    | [] | _ :: _ :: _ => simp [answer]
  | eq => exact comparing_ne_unknownName fun _ _ => orFault_ne_declared
  | neq => exact comparing_ne_unknownName fun _ _ h => orFault_ne_declared (map_eq_error_iff.1 h)
  | lt | lte | gt | gte => exact comparing_ne_unknownName fun _ _ => ordered_ne_unknownName
  | env => exact orFault_ne_declared

end Evaluator

end Verdict
