import Verdict.Predicate.Basic
import Verdict.Predicate.CalendarPart
import Verdict.Rule.Expression
/-!
# Where a combinator can stand

The first combinator of a rule joins its operands, and any further one stays in the right operand.
This module follows such a combinator through the reading of a clause. It is a run of two equal
characters that are neither blanks nor separators, so cutting at a colon, cutting at commas and
trimming blanks all leave it whole: it comes out in the name or in one of the arguments, and
nowhere else (`occurs_iff_name_or_args`).

Cutting and trimming are argued for any run of characters; the combinators come in at the end.
-/

namespace Verdict

open Text

/-! ## Runs of characters -/

/-- A run without the character `c` does not reach across an occurrence of `c`. -/
theorem infix_append_cons_iff {c : Char} {run before after : List Char} (hc : c ∉ run) :
    run <:+: before ++ c :: after ↔ run <:+: before ∨ run <:+: after := by
  constructor
  · rintro ⟨front, back, h⟩
    rw [List.append_assoc] at h
    rcases List.append_eq_append_iff.1 h with ⟨rest, hbefore, hrest⟩ | ⟨rest, -, hrest⟩
    · -- the run starts in front of `c`, so it has to end there too
      rcases List.append_eq_append_iff.1 hrest with ⟨last, hlast, -⟩ | ⟨more, hrun, hmore⟩
      · exact .inl ⟨front, last, by rw [hbefore, hlast, List.append_assoc]⟩
      · cases more with
        | nil =>
          rw [List.append_nil] at hrun
          exact .inl ⟨front, [], by rw [hbefore, hrun, List.append_nil]⟩
        | cons x more =>
          rw [List.cons_append, List.cons.injEq] at hmore
          exact absurd (by rw [hrun, hmore.1]; simp) hc
    · -- it starts in `after`, or at `c`, and then it is empty
      cases rest with
      | nil =>
        cases run with
        | nil => exact .inl List.nil_infix
        | cons x run =>
          rw [List.nil_append, List.cons_append, List.cons.injEq] at hrest
          exact absurd (by rw [hrest.1]; simp) hc
      | cons x rest =>
        rw [List.cons_append, List.cons.injEq] at hrest
        exact .inr ⟨rest, back, by rw [hrest.2, List.append_assoc]⟩
  · rintro (h | h)
    · exact h.trans (List.prefix_append _ _).isInfix
    · exact h.trans ⟨before ++ [c], [], by simp⟩

/-- Cutting at the first character `c` leaves a run without `c` whole. -/
theorem infix_cut_iff {c : Char} {run cs : List Char} (hc : c ∉ run) :
    run <:+: cs ↔
      run <:+: cs.takeWhile (· ≠ c) ∨ run <:+: (cs.dropWhile (· ≠ c)).drop 1 := by
  by_cases hmem : c ∈ cs
  · obtain ⟨before, after, rfl, hbefore⟩ := List.eq_append_cons_of_mem hmem
    have hall : ∀ x ∈ before, decide (x ≠ c) = true :=
      fun x hx => decide_eq_true fun h => hbefore (h ▸ hx)
    rw [List.takeWhile_append_of_pos hall, List.dropWhile_append_of_pos hall,
      List.takeWhile_cons_of_neg (by simp), List.dropWhile_cons_of_neg (by simp),
      List.append_nil, List.drop_succ_cons, List.drop_zero]
    exact infix_append_cons_iff hc
  · have hall : ∀ x ∈ cs, decide (x ≠ c) = true :=
      fun x hx => decide_eq_true fun h => hmem (h ▸ hx)
    rw [← List.append_nil cs, List.takeWhile_append_of_pos hall, List.dropWhile_append_of_pos hall,
      List.takeWhile_nil, List.dropWhile_nil, List.append_nil, List.drop_nil, List.infix_nil]
    exact ⟨.inl, fun h => h.elim id fun h => h ▸ List.nil_infix⟩

/-- Cutting at every separator leaves a run without the separator whole. -/
theorem infix_fields_iff {c : Char} {run : List Char} (hc : c ∉ run) (cs : List Char) :
    run <:+: cs ↔ ∃ f ∈ fields c cs, run <:+: f := by
  by_cases hmem : c ∈ cs
  · obtain ⟨before, after, hcs, hbefore⟩ := List.eq_append_cons_of_mem hmem
    have hshorter : after.length < cs.length := by
      rw [hcs, List.length_append, List.length_cons]
      omega
    rw [hcs, infix_append_cons_iff hc, fields_append_cons hbefore, infix_fields_iff hc after]
    simp only [List.mem_cons, exists_eq_or_imp]
  · rw [fields_of_notMem hmem]
    simp only [List.mem_singleton, exists_eq_left]
termination_by cs.length

/-- Dropping a class of characters in front leaves a run without them whole. -/
theorem infix_dropWhile_iff {p : Char → Bool} {run : List Char} (hp : ∀ c ∈ run, p c = false)
    (cs : List Char) : run <:+: cs.dropWhile p ↔ run <:+: cs := by
  induction cs with
  | nil => rfl
  | cons c cs ih =>
    by_cases hc : p c = true
    · rw [List.dropWhile_cons_of_pos hc, ih, List.infix_cons_iff]
      refine ⟨.inr, fun h => h.elim (fun h => ?_) id⟩
      rcases List.prefix_cons_iff.1 h with rfl | ⟨run, rfl, -⟩
      · exact List.nil_infix
      · rw [hp c List.mem_cons_self] at hc
        cases hc
    · rw [List.dropWhile_cons_of_neg hc]

/-- Trimming a class of characters leaves a run without them whole. -/
theorem infix_trimWhere_iff {p : Char → Bool} {run : List Char} (hp : ∀ c ∈ run, p c = false)
    (cs : List Char) : run <:+: trimWhere p cs ↔ run <:+: cs := by
  have hrev : ∀ c ∈ run.reverse, p c = false := fun c hc => hp c (List.mem_reverse.1 hc)
  rw [trimWhere, ← List.reverse_infix, List.reverse_reverse, infix_dropWhile_iff hrev,
    List.reverse_infix, infix_dropWhile_iff hp]

/-! ## Combinators -/

namespace Combinator

/-- The two characters of a combinator. -/
def run (op : Combinator) : List Char := [op.mark, op.mark]

/-- Whether one of the combinators stands somewhere among the characters. -/
def Occurs (cs : List Char) : Prop := ∃ op : Combinator, op.run <:+: cs

/-- A pair of characters is a combinator exactly if both are its mark. -/
theorem ofPair?_eq_some_iff {a b : Char} {op : Combinator} :
    ofPair? a b = some op ↔ a = op.mark ∧ b = op.mark := by
  unfold ofPair?
  cases op with
  | and => simp [mark]
  | or =>
    simp only [mark]
    constructor
    · intro h
      split at h
      · cases h
      · split at h
        · assumption
        · cases h
    · rintro ⟨rfl, rfl⟩
      decide

/-- A text is split exactly when a combinator stands in it. -/
theorem isSome_splitChars?_iff (cs : List Char) : (splitChars? cs).isSome ↔ Occurs cs := by
  induction cs with
  | nil => simp [splitChars?, Occurs, run]
  | cons a cs ih =>
    cases cs with
    | nil => simp [splitChars?, Occurs, run, List.infix_cons_iff]
    | cons b rest =>
      have hhead : (∃ op : Combinator, op.run <+: a :: b :: rest) ↔ (ofPair? a b).isSome := by
        rw [Option.isSome_iff_exists]
        simp only [ofPair?_eq_some_iff, run, List.cons_prefix_cons, List.nil_prefix, and_true,
          @eq_comm _ a, @eq_comm _ b]
      have hstep : Occurs (a :: b :: rest) ↔ (ofPair? a b).isSome ∨ Occurs (b :: rest) := by
        simp only [Occurs, List.infix_cons_iff (a := a), exists_or, hhead]
      rw [hstep, ← ih, splitChars?]
      cases ofPair? a b with
      | some op => simp
      | none => simp

/-- A text is split at the combinator that stands behind its left part, provided that none stands
in that part and that its last character does not make one with what follows. -/
theorem splitChars?_append {op : Combinator} {left : List Char} (right : List Char)
    (hleft : ¬ Occurs left) (hend : left.getLast? ≠ some op.mark) :
    splitChars? (left ++ op.mark :: op.mark :: right) = some (left, op, right) := by
  -- the induction moves the split back over one character that starts no combinator
  have hcons : ∀ {a b : Char} {rest cs : List Char}, ofPair? a b = none →
      splitChars? (b :: rest) = some (cs, op, right) →
      splitChars? (a :: b :: rest) = some (a :: cs, op, right) := by
    intro a b rest cs hpair hrest
    rw [splitChars?, hpair, hrest, Option.map_some]
  have hnone : ∀ {a b : Char}, (∀ op' : Combinator, a = op'.mark → b ≠ op'.mark) →
      ofPair? a b = none := by
    intro a b h
    rw [Option.eq_none_iff_forall_ne_some]
    intro op' hpair
    have hmarks := ofPair?_eq_some_iff.1 hpair
    exact h op' hmarks.1 hmarks.2
  have hstart : splitChars? (op.mark :: op.mark :: right) = some ([], op, right) := by
    rw [splitChars?, ofPair?_eq_some_iff.2 ⟨rfl, rfl⟩]
  induction left with
  | nil => exact hstart
  | cons a left ih =>
    cases left with
    | nil =>
      have ha : a ≠ op.mark := by
        intro ha
        exact hend (by rw [ha, List.getLast?_singleton])
      refine hcons (hnone ?_) hstart
      intro op' haop hop
      exact ha (haop.trans hop.symm)
    | cons b rest =>
      have htail : ¬ Occurs (b :: rest) := by
        rintro ⟨op', hop'⟩
        exact hleft ⟨op', hop'.trans (List.suffix_cons a _).isInfix⟩
      rw [List.getLast?_cons_cons] at hend
      refine hcons (hnone ?_) (ih htail hend)
      intro op' ha hb
      refine hleft ⟨op', ?_⟩
      rw [ha, hb]
      exact (List.prefix_append [op'.mark, op'.mark] rest).isInfix

/-- Looking for a combinator finds one exactly when there is one. -/
theorem occursIn_iff {text : String} : occursIn text = true ↔ Occurs text.toList :=
  isSome_splitChars?_iff text.toList

theorem isBlank_of_mem_run {op : Combinator} : ∀ c ∈ op.run, isBlank c = false := by
  intro c hc
  have hmark : c = op.mark := by simpa [run] using hc
  rw [hmark]
  cases op <;> decide

theorem colon_notMem_run (op : Combinator) : ':' ∉ op.run := by
  cases op <;> decide

theorem comma_notMem_run (op : Combinator) : ',' ∉ op.run := by
  cases op <;> decide

/-- Without the characters of the combinators there is none of them. -/
theorem not_occurs_of_forall_notMem {cs : List Char} (h : ∀ op : Combinator, op.mark ∉ cs) :
    ¬ Occurs cs := by
  rintro ⟨op, hop⟩
  exact h op (hop.subset List.mem_cons_self)

/-- Trimming keeps the combinators of a text. -/
theorem occurs_trimChars_iff (cs : List Char) : Occurs (trimChars cs) ↔ Occurs cs :=
  exists_congr fun _ => infix_trimWhere_iff isBlank_of_mem_run cs

/-- Lowering letters keeps the combinators of a text. -/
theorem Occurs.lowered {s : String} (h : Occurs s.toList) : Occurs (Text.lowered s).toList := by
  obtain ⟨op, hop⟩ := h
  have hrun : op.run.map Char.toLower = op.run := by cases op <;> decide
  refine ⟨op, ?_⟩
  rw [toList_lowered, ← hrun]
  exact hop.map Char.toLower

end Combinator

open Combinator

/-! ## Clauses -/

namespace Clause

/-- The combinators behind the colon of a clause stand in its arguments. -/
theorem occurs_argsOfChars_iff (cs : List Char) :
    (∃ a ∈ argsOfChars cs, Occurs a.toList) ↔ Occurs cs := by
  unfold argsOfChars
  split
  · next hblank =>
    -- nothing but blanks: there is neither an argument nor a combinator
    refine ⟨fun ⟨a, ha, _⟩ => absurd ha List.not_mem_nil, fun ⟨op, hop⟩ => ?_⟩
    have hmem : op.mark ∈ cs := hop.subset List.mem_cons_self
    have hmark : isBlank op.mark = true := List.all_eq_true.1 hblank _ hmem
    rw [isBlank_of_mem_run op.mark List.mem_cons_self] at hmark
    cases hmark
  · constructor
    · rintro ⟨a, ha, op, hop⟩
      obtain ⟨f, hf, rfl⟩ := List.mem_map.1 ha
      rw [String.toList_ofList, trimChars, infix_trimWhere_iff isBlank_of_mem_run] at hop
      exact ⟨op, (infix_fields_iff (comma_notMem_run op) cs).2 ⟨f, hf, hop⟩⟩
    · rintro ⟨op, hop⟩
      obtain ⟨f, hf, hop⟩ := (infix_fields_iff (comma_notMem_run op) cs).1 hop
      refine ⟨_, List.mem_map.2 ⟨f, hf, rfl⟩, op, ?_⟩
      rwa [String.toList_ofList, trimChars, infix_trimWhere_iff isBlank_of_mem_run]

/-- The combinators of a clause stand in its name or in one of its arguments. -/
theorem occurs_iff_name_or_args (text : String) :
    Occurs text.toList ↔
      Occurs (parse text).name.toList ∨ ∃ a ∈ (parse text).args, Occurs a.toList := by
  have hcut : Occurs text.toList ↔ Occurs (text.toList.takeWhile (· ≠ ':')) ∨
      Occurs ((text.toList.dropWhile (· ≠ ':')).drop 1) := by
    simp only [Occurs, ← exists_or]
    exact exists_congr fun op => infix_cut_iff (colon_notMem_run op)
  rw [hcut, parse, String.toList_ofList, occurs_trimChars_iff, occurs_argsOfChars_iff]

end Clause

/-! ## Expressions -/

/-- Whether the right operand of an expression holds another combinator. -/
def Expression.Chained : Expression → Prop
  | .single _ => False
  | .compound _ _ right => Occurs right.toList

/-- A text without combinators is a single clause. -/
theorem Expression.split_of_not_occurs {text : String} (h : ¬ Occurs text.toList) :
    Expression.split text = .single text := by
  rw [← isSome_splitChars?_iff, Option.not_isSome_iff_eq_none] at h
  rw [Expression.split, h]

/-- Joined texts are split where they were joined, unless a combinator stands or arises further to
the left. -/
theorem Expression.split_of_joined {op : Combinator} {left : String} (right : String)
    (hleft : ¬ Occurs left.toList) (hend : left.toList.getLast? ≠ some op.mark) :
    Expression.split (left ++ op.token ++ right) = .compound left op right := by
  have hchars : (left ++ op.token ++ right).toList =
      left.toList ++ op.mark :: op.mark :: right.toList := by
    simp [token]
  rw [Expression.split, hchars, splitChars?_append _ hleft hend]
  simp only [String.ofList_toList]

/-! ## Names -/

/-- No combinator stands in the name of a predicate. -/
theorem Predicate.not_occurs_name (p : Predicate) : ¬ Occurs p.name.toList := by
  rw [← isSome_splitChars?_iff]
  cases p <;> decide

/-- A name with a combinator is no predicate's. -/
theorem Predicate.ofName?_of_occurs {name : String} (h : Occurs name.toList) :
    Predicate.ofName? name = none := by
  cases hp : Predicate.ofName? name with
  | none => rfl
  | some p =>
    rw [← Predicate.name_of_ofName? hp] at h
    exact absurd h p.not_occurs_name

namespace CalendarPart

/-- No combinator stands in the name of a weekday or a month. -/
theorem not_occurs_of_mem_names {part : CalendarPart} :
    ∀ e ∈ part.names, ¬ Occurs e.1.toList := by
  simp only [← isSome_splitChars?_iff]
  cases part <;> decide

/-- An argument with a combinator names neither a weekday nor a month. -/
theorem read_of_occurs (part : CalendarPart) {argument : String} (h : Occurs argument.toList) :
    part.read argument = .error (.declared (.unrecognized part.label argument)) := by
  have htoken : Occurs (lowered (trim argument)).toList := by
    apply Occurs.lowered
    rwa [toList_trim, occurs_trimChars_iff]
  have hdigits : (lowered (trim argument)).toList.all isAsciiDigit = false := by
    obtain ⟨op, hop⟩ := htoken
    have hmark : isAsciiDigit op.mark = false := by cases op <;> decide
    rw [List.all_eq_false]
    exact ⟨op.mark, hop.subset List.mem_cons_self, by rw [hmark]; decide⟩
  have hname : part.numberOf? (lowered (trim argument)) = none := by
    rw [numberOf?, Option.map_eq_none_iff, List.find?_eq_none]
    intro e he heq
    rw [decide_eq_true_eq] at heq
    exact not_occurs_of_mem_names e he (heq ▸ htoken)
  unfold read
  simp only [hdigits, hname, Bool.and_false, Bool.false_eq_true, if_false]

end CalendarPart

end Verdict
