import Verdict.Proofs.Evaluator.Spelling
/-!
# Predicates over any number of arguments

`days` and `months` ask whether today's number is among those that their arguments name, and `env`
asks whether a setting is among texts. So a row of arguments is answered as the disjunction of the
answers to its parts, in whatever order they come, however often and however they are spelled. A
lookup of settings that fails leaves no part of the row with an answer.

Arguments are read before anything is asked. One that names nothing is therefore an error even
behind one that names today, and the first such argument is the one that the error is about
(`readAll_of_first_refused`).
-/

namespace Verdict

open Text

namespace CalendarPart

/-- The predicate that asks for a part of the calendar. -/
def predicate : CalendarPart → Predicate
  | .day => .days
  | .month => .months

/-- The number of a part of the calendar on a date. -/
def numberOn : CalendarPart → Date → Nat
  | .day, d => d.weekday
  | .month, d => d.month

variable {part : CalendarPart} {args : List String} {n : Nat}

theorem numberOn_mem (part : CalendarPart) (d : Date) :
    1 ≤ part.numberOn d ∧ part.numberOn d ≤ part.last := by
  cases part with
  | day => exact d.weekday_mem
  | month => exact d.month_mem

/-- An argument that is read at all names what its spelling says. -/
theorem read_eq_ok_iff_spelling {a : String} (hreads : part.Reads a) :
    part.read a = .ok n ↔ part.Spelling n a := by
  have hshort : ¬ IsLongNumber a := by
    intro hlong
    obtain ⟨m, hm⟩ := hreads
    cases hm.symm.trans (read_eq_fault_iff.2 ⟨hlong, rfl⟩)
  rw [read_eq_ok_iff hshort, names_iff_spelling]

/-- Within the digit limit, the arguments that are read are the spellings. -/
theorem reads_iff_spelling {a : String} (hshort : ¬ IsLongNumber a) :
    part.Reads a ↔ ∃ n, part.Spelling n a := by
  simp only [Reads, read_eq_ok_iff hshort, names_iff_spelling]

/-- What is read are the numbers that the arguments name. -/
theorem readAll_of_reads (hreads : ∀ a ∈ args, part.Reads a) :
    ∃ ns, part.readAll args = .ok ns ∧ ∀ n, n ∈ ns ↔ ∃ a ∈ args, part.read a = .ok n := by
  induction args with
  | nil => exact ⟨[], rfl, by simp⟩
  | cons a as ih =>
    obtain ⟨⟨m, hm⟩, has⟩ := List.forall_mem_cons.1 hreads
    obtain ⟨ns, hns, hmem⟩ := ih has
    refine ⟨m :: ns, ?_, fun n => ?_⟩
    · rw [readAll, hm, hns]
      rfl
    · rw [List.mem_cons, hmem, List.exists_mem_cons_iff, hm, Except.ok.injEq, eq_comm]

/-- The first argument that is not read decides the error. -/
theorem readAll_of_first_refused (hshort : ∀ a ∈ args, ¬ IsLongNumber a)
    (hrefused : ∃ a ∈ args, ¬ part.Reads a) :
    ∃ before token after e, args = before ++ token :: after ∧ (∀ a ∈ before, part.Reads a) ∧
      ¬ part.Reads token ∧ part.read token = .error (.declared e) ∧
      part.readAll args = .error (.declared e) := by
  cases hall : part.readAll args with
  | ok ns =>
    obtain ⟨a, ha, hnone⟩ := hrefused
    exact absurd (readAll_isOk_iff.1 ⟨ns, hall⟩ a ha) hnone
  | error e =>
    obtain ⟨before, token, after, rfl, hbefore, htoken⟩ := readAll_eq_error_iff.1 hall
    have hnone : ¬ part.Reads token := by
      rintro ⟨n, hn⟩
      cases hn.symm.trans htoken
    cases e with
    | fault f =>
      exact absurd (read_eq_fault_iff.1 htoken).1 (hshort token (by simp))
    | declared e => exact ⟨before, token, after, e, rfl, hbefore, hnone, htoken, rfl⟩

end CalendarPart

namespace Evaluator

variable {E : Evaluator} {part : CalendarPart} {A B args : List String} {n : Nat} {bits : Bits}

/-! ## Weekdays and months -/

theorem call_calendar (part : CalendarPart) (hgiven : args ≠ []) :
    (E.call part.predicate.name args bits).result =
      (part.readAll args).map fun ns => ns.contains (part.numberOn E.today) := by
  have hanswer : E.answer part.predicate args (bits 0) =
      among part.predicate part (part.numberOn E.today) args := by cases part <;> rfl
  rw [result_call, hanswer, among, List.isEmpty_eq_false_iff.2 hgiven, if_neg Bool.false_ne_true]

/-- Arguments that are read hold when one of them names today. -/
theorem call_of_reads (hgiven : args ≠ []) (hreads : ∀ a ∈ args, part.Reads a) :
    (E.call part.predicate.name args bits).result =
      .ok (args.any fun a => part.read a = .ok (part.numberOn E.today)) := by
  obtain ⟨ns, hns, hmem⟩ := CalendarPart.readAll_of_reads hreads
  rw [call_calendar part hgiven, hns, Except.map, Except.ok.injEq, Bool.eq_iff_iff,
    List.contains_iff_mem, hmem, List.any_eq_true]
  simp only [decide_eq_true_eq]

theorem call_append (hA : A ≠ []) (hB : B ≠ []) (hreads : ∀ a ∈ A ++ B, part.Reads a) :
    ∃ a b, (E.call part.predicate.name A bits).result = .ok a ∧
      (E.call part.predicate.name B bits).result = .ok b ∧
      (E.call part.predicate.name (A ++ B) bits).result = .ok (a || b) := by
  obtain ⟨hreadsA, hreadsB⟩ := List.forall_mem_append.1 hreads
  refine ⟨_, _, call_of_reads hA hreadsA, call_of_reads hB hreadsB, ?_⟩
  rw [call_of_reads (List.append_ne_nil_of_left_ne_nil hA B) hreads, List.any_append]

/-- Only the numbers that are named count. -/
theorem call_congr (hA : A ≠ []) (hB : B ≠ []) (hreads : ∀ a ∈ A ++ B, part.Reads a)
    (hsame : ∀ n, (∃ a ∈ A, part.Spelling n a) ↔ ∃ b ∈ B, part.Spelling n b) :
    (E.call part.predicate.name A bits).result = (E.call part.predicate.name B bits).result := by
  obtain ⟨hreadsA, hreadsB⟩ := List.forall_mem_append.1 hreads
  have hnamed : ∀ {args : List String}, (∀ a ∈ args, part.Reads a) → ∀ n,
      (∃ a ∈ args, part.read a = .ok n) ↔ ∃ a ∈ args, part.Spelling n a := by
    intro args hargs n
    refine exists_congr fun a => and_congr_right fun ha => ?_
    exact CalendarPart.read_eq_ok_iff_spelling (hargs a ha)
  rw [call_of_reads hA hreadsA, call_of_reads hB hreadsB, Except.ok.injEq, Bool.eq_iff_iff,
    List.any_eq_true, List.any_eq_true]
  simp only [decide_eq_true_eq]
  rw [hnamed hreadsA, hnamed hreadsB, hsame]

/-- A number in range is read from its own digits. -/
theorem read_toString (first : 1 ≤ n) (last : n ≤ part.last) : part.read (toString n) = .ok n := by
  have hall : ∀ n < 13, 1 ≤ n → n ≤ part.last → part.read (toString n) = .ok n := by
    cases part <;> decide
  have hbound : part.last ≤ 12 := by cases part <;> decide
  exact hall n (by omega) first last

/-- Numbers in range hold on the days that have one of them. -/
theorem call_numbers (E : Evaluator) (part : CalendarPart) (bits : Bits) {ns : List Nat}
    (hgiven : ns ≠ []) (hrange : ∀ n ∈ ns, 1 ≤ n ∧ n ≤ part.last) :
    (E.call part.predicate.name (ns.map toString) bits).result =
      .ok (ns.contains (part.numberOn E.today)) := by
  have hread : ∀ n ∈ ns, part.read (toString n) = .ok n :=
    fun n hn => read_toString (hrange n hn).1 (hrange n hn).2
  have hreads : ∀ a ∈ ns.map toString, part.Reads a := by
    intro a ha
    obtain ⟨n, hn, rfl⟩ := List.mem_map.1 ha
    exact ⟨n, hread n hn⟩
  rw [call_of_reads (List.map_eq_nil_iff.not.2 hgiven) hreads, Except.ok.injEq, Bool.eq_iff_iff,
    List.contains_iff_mem, List.any_map, List.any_eq_true]
  constructor
  · rintro ⟨n, hn, htoday⟩
    rw [Function.comp_apply, hread n hn, decide_eq_true_eq, Except.ok.injEq] at htoday
    rwa [← htoday]
  · intro htoday
    refine ⟨_, htoday, ?_⟩
    rw [Function.comp_apply, hread _ htoday, decide_eq_true_eq]

/-- One number of each part of the calendar holds on a date. -/
theorem existsUnique_call_number (E : Evaluator) (part : CalendarPart) (bits : Bits) :
    ∃! n, (1 ≤ n ∧ n ≤ part.last) ∧
      (E.call part.predicate.name [toString n] bits).result = .ok true := by
  have hone : ∀ n, 1 ≤ n ∧ n ≤ part.last →
      ((E.call part.predicate.name [toString n] bits).result = .ok true ↔
        part.numberOn E.today = n) := by
    intro n hn
    have hcall := call_numbers E part bits (List.cons_ne_nil n []) (List.forall_mem_singleton.2 hn)
    rw [List.map_singleton] at hcall
    rw [hcall, Except.ok.injEq, List.contains_iff_mem, List.mem_singleton]
  have hmem := part.numberOn_mem E.today
  refine ⟨part.numberOn E.today, ⟨hmem, (hone _ hmem).2 rfl⟩, ?_⟩
  rintro n ⟨hn, htrue⟩
  exact ((hone n hn).1 htrue).symm

/-- The days from Monday to Friday are those that are not at the weekend. -/
theorem call_weekday (E : Evaluator) (bits : Bits) :
    ∃ b, (E.call "weekday" [] bits).result = .ok b ∧
      (E.call "days" ["1", "2", "3", "4", "5"] bits).result = .ok b ∧
      (E.call "weekend" [] bits).result = .ok !b := by
  have hweek : ∀ w < 8, 1 ≤ w → [1, 2, 3, 4, 5].contains w = !(w = 6 || w = 7) := by decide
  have hmem := E.today.weekday_mem
  refine ⟨!E.isWeekend, result_call .weekday [] bits, ?_, ?_⟩
  · have hnumbers : ["1", "2", "3", "4", "5"] = [1, 2, 3, 4, 5].map toString := by decide
    rw [hnumbers]
    refine (call_numbers E .day bits (List.cons_ne_nil _ _) (by decide)).trans ?_
    rw [isWeekend, CalendarPart.numberOn, hweek _ (Nat.lt_succ_of_le hmem.2) hmem.1]
  · rw [Bool.not_not]
    exact result_call .weekend [] bits

/-! ## Settings -/

/-- Whether a setting is among the texts of two rows in one is whether it is among those of the
first or of the second row. -/
theorem call_env_append {name : String} {A B : List String} {current : Option String}
    (hA : A ≠ []) (hB : B ≠ []) (looked : E.env.find? name = .ok current) :
    ∃ a b, (E.call "env" (name :: A) bits).result = .ok a ∧
      (E.call "env" (name :: B) bits).result = .ok b ∧
      (E.call "env" (name :: (A ++ B)) bits).result = .ok (a || b) := by
  refine ⟨_, _, call_env_of_looked bits hA looked, call_env_of_looked bits hB looked, ?_⟩
  rw [call_env_of_looked bits (List.append_ne_nil_of_left_ne_nil hA B) looked]
  cases current with
  | none => rfl
  | some text =>
    rw [Except.ok.injEq, Bool.eq_iff_iff]
    simp only [Option.any_some, Bool.or_eq_true, List.contains_iff_mem, List.mem_append]

/-- `env` has no error of its own: it has an answer, or the lookup fails. -/
theorem call_env_ends (E : Evaluator) (args : List String) (bits : Bits) :
    (∃ b, (E.call "env" args bits).result = .ok b) ∨ ∃ f, E.LookupFails .setting args f ∧
      (E.call "env" args bits).result = .error (.fault f) := by
  rcases few_or_asked args with few | ⟨name, accepted, rfl, asked⟩
  · refine .inl ⟨false, (result_call .env args bits).trans ?_⟩
    rw [answer, settingAmong_of_few few]
    rfl
  · cases hlooked : E.env.find? name with
    | ok current => exact .inl ⟨_, call_env_of_looked bits asked hlooked⟩
    | error f =>
      exact .inr ⟨f, ⟨rfl, name, accepted, rfl, asked, hlooked⟩,
        call_env_of_fails bits asked hlooked⟩

/-! ## All of them -/

/-- **Predicates over several arguments are disjunctions.** The arguments of `days` and `months`
that are read are, within the digit limit, the spellings of the numbers in range. Where all are
read, two rows of arguments in one have the disjunction of their answers, and rows that name the
same numbers have the same answer. Where one is not read, the first such argument is refused, and
the call with it. `env` has an answer unless the lookup fails for the setting, and no error of its
own; where the setting is looked up, two rows of texts in one have the disjunction of their answers,
and where the lookup fails, so do all three calls. One weekday and one month hold on a date, and
`weekday` is the weekdays from Monday to Friday and the opposite of `weekend`. -/
theorem calls_are_disjunctions (E : Evaluator) (bits : Bits) :
    (∀ part : CalendarPart,
      (∀ a, ¬ CalendarPart.IsLongNumber a → (part.Reads a ↔ ∃ n, part.Spelling n a)) ∧
      (∀ A B : List String, A ≠ [] → B ≠ [] → (∀ a ∈ A ++ B, part.Reads a) →
        (∃ a b, (E.call part.predicate.name A bits).result = .ok a ∧
          (E.call part.predicate.name B bits).result = .ok b ∧
          (E.call part.predicate.name (A ++ B) bits).result = .ok (a || b)) ∧
        ((∀ n, (∃ a ∈ A, part.Spelling n a) ↔ ∃ b ∈ B, part.Spelling n b) →
          (E.call part.predicate.name A bits).result =
            (E.call part.predicate.name B bits).result)) ∧
      (∀ args : List String, (∀ a ∈ args, ¬ CalendarPart.IsLongNumber a) →
        (∃ a ∈ args, ¬ part.Reads a) →
        ∃ before token after e, args = before ++ token :: after ∧
          (∀ a ∈ before, part.Reads a) ∧ ¬ part.Reads token ∧
          part.read token = .error (.declared e) ∧
          ((∃ n, e = .outOfRange part.label part.last n) ∨ e = .unrecognized part.label token) ∧
          (E.call part.predicate.name args bits).result = .error (.declared e)) ∧
      ∃! n, (1 ≤ n ∧ n ≤ part.last) ∧
        (E.call part.predicate.name [toString n] bits).result = .ok true) ∧
    (∀ args, (∃ b, (E.call "env" args bits).result = .ok b) ∨ ∃ f,
      E.LookupFails .setting args f ∧ (E.call "env" args bits).result = .error (.fault f)) ∧
    (∀ (name : String) (A B : List String), A ≠ [] → B ≠ [] →
      (∀ current, E.env.find? name = .ok current →
        ∃ a b, (E.call "env" (name :: A) bits).result = .ok a ∧
          (E.call "env" (name :: B) bits).result = .ok b ∧
          (E.call "env" (name :: (A ++ B)) bits).result = .ok (a || b)) ∧
      ∀ f, E.env.find? name = .error f → ∀ C ∈ [A, B, A ++ B],
        (E.call "env" (name :: C) bits).result = .error (.fault f)) ∧
    ∃ b, (E.call "weekday" [] bits).result = .ok b ∧
      (E.call "days" ["1", "2", "3", "4", "5"] bits).result = .ok b ∧
      (E.call "weekend" [] bits).result = .ok !b := by
  refine ⟨fun part => ⟨fun a => CalendarPart.reads_iff_spelling, fun A B hA hB hreads => ?_,
    fun args hshort hrefused => ?_, existsUnique_call_number E part bits⟩,
    fun args => call_env_ends E args bits,
    fun name A B hA hB => ⟨fun _ => call_env_append hA hB, fun f fails C hC => ?_⟩,
    call_weekday E bits⟩
  · exact ⟨call_append hA hB hreads, call_congr hA hB hreads⟩
  · obtain ⟨before, token, after, e, hargs, hbefore, hnone, htoken, hall⟩ :=
      CalendarPart.readAll_of_first_refused hshort hrefused
    have hgiven : args ≠ [] := by
      rw [hargs]
      exact List.append_ne_nil_of_right_ne_nil _ (List.cons_ne_nil _ _)
    refine ⟨before, token, after, e, hargs, hbefore, hnone, htoken,
      CalendarPart.read_eq_declared htoken, ?_⟩
    rw [call_calendar part hgiven, hall, Except.map]
  · refine call_env_of_fails bits ?_ fails
    rintro rfl
    simp [hA.symm, hB.symm, hA] at hC

/-- A process that is asked in UTF-8 has no answer for half of a surrogate pair, whatever the row of
texts. -/
theorem calls_end_at_unwritable_name :
    let name := String.ofList [Text.standIn 0xD800]
    let refusal : Fault := .outside "UnicodeEncodeError"
      "'utf-8' codec can't encode character '\\ud800' in position 0: surrogates not allowed"
    let process := Environment.utf8 .empty
    let E : Evaluator := ⟨.empty, ⟨2017, 3, 29, by decide, by decide⟩, process.lookup⟩
    ∀ A, A ≠ [] → (E.call "env" (name :: A) fun _ => false).result = .error (.fault refusal) := by
  intro name refusal process E A hA
  have hfails : process.lookup.find? name = .error refusal := by decide +kernel
  exact call_env_of_fails _ hA hfails

/-- Two rows that name Tuesday and Wednesday, and one whose second argument names no day. -/
theorem calls_are_disjunctions_respelled :
    let E : Evaluator := ⟨.empty, ⟨2017, 3, 29, by decide, by decide⟩, .empty⟩
    let A := ["tues", " 003 "]
    let B := ["WED", "2", "wed"]
    A ≠ [] ∧ B ≠ [] ∧ (∀ a ∈ A ++ B, CalendarPart.day.Reads a) ∧
      (∀ n, (∃ a ∈ A, CalendarPart.day.Spelling n a) ↔ ∃ b ∈ B, CalendarPart.day.Spelling n b) ∧
      (E.call "days" A fun _ => false).result = (E.call "days" B fun _ => false).result ∧
      (∀ a ∈ ["wed", "8"], ¬ CalendarPart.IsLongNumber a) ∧ ¬ CalendarPart.day.Reads "8" ∧
      ∃ e, (E.call "days" ["wed", "8"] fun _ => false).result = .error (.declared e) := by
  intro E A B
  have htues : CalendarPart.day.read "tues" = .ok 2 := by decide
  have hthree : CalendarPart.day.read " 003 " = .ok 3 := by decide
  have hWED : CalendarPart.day.read "WED" = .ok 3 := by decide
  have htwo : CalendarPart.day.read "2" = .ok 2 := by decide
  have hwed : CalendarPart.day.read "wed" = .ok 3 := by decide
  -- an argument that reads as a number is a spelling of that number alone
  have hspelling : ∀ {a m}, CalendarPart.day.read a = .ok m → ∀ n,
      CalendarPart.day.Spelling n a ↔ m = n := by
    intro a m hread n
    rw [← CalendarPart.read_eq_ok_iff_spelling ⟨m, hread⟩, hread, Except.ok.injEq]
  have hreads : ∀ a ∈ A ++ B, CalendarPart.day.Reads a := by
    simp [A, B, CalendarPart.Reads, htues, hthree, hWED, htwo, hwed]
  have hsame : ∀ n, (∃ a ∈ A, CalendarPart.day.Spelling n a) ↔
      ∃ b ∈ B, CalendarPart.day.Spelling n b := by
    intro n
    simp only [A, B, List.exists_mem_cons_iff, hspelling htues, hspelling hthree, hspelling hWED,
      hspelling htwo, hspelling hwed, List.not_mem_nil, false_and, exists_false, or_false]
    omega
  have hshort : ∀ a ∈ ["wed", "8"], ¬ CalendarPart.IsLongNumber a := by
    rintro a ha ⟨-, hlong⟩
    have hlength : ∀ a ∈ ["wed", "8"], (trimChars a.toList).length ≤ digitLimit := by decide
    exact absurd hlong (Nat.not_lt.2 (hlength a ha))
  have hrefused : ¬ CalendarPart.day.Reads "8" := by
    rintro ⟨n, hn⟩
    have height : CalendarPart.day.read "8" = .error (.declared (.outOfRange "day" 7 8)) := by
      decide
    cases hn.symm.trans height
  obtain ⟨-, hparts, hfirst, -⟩ := (calls_are_disjunctions E fun _ => false).1 .day
  obtain ⟨-, -, -, e, -, -, -, -, -, he⟩ := hfirst ["wed", "8"] hshort ⟨"8", by decide, hrefused⟩
  exact ⟨List.cons_ne_nil _ _, List.cons_ne_nil _ _, hreads, hsame,
    (hparts A B (List.cons_ne_nil _ _) (List.cons_ne_nil _ _) hreads).2 hsame, hshort, hrefused,
    e, he⟩

end Evaluator

end Verdict
