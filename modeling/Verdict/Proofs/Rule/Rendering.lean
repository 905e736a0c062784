import Verdict.Proofs.Rule.Occurrence
import Verdict.Proofs.Text.Trimming
/-!
# Clauses written without blanks

Reading a clause forgets the blanks around its name and around its arguments, and nothing else.
What it gives is a trimmed name without a colon and trimmed arguments without a comma, and never a
single empty argument, because nothing but blanks behind the colon is read as no arguments. These
are all that it can give: whatever is of this form is read back from the text that writes it without
blanks (`parse_render`).

So a clause has a text without blanks that is read as the same name and the same arguments
(`parse_normal`). No combinator comes or goes on the way to it (`occurs_normal_iff`).
-/

namespace Verdict

open Text

/-! ## Fields -/

namespace Text

variable {c : Char}

/-- Cutting at every separator is what the library does with a list. -/
theorem fields_eq_splitOn (c : Char) (cs : List Char) : fields c cs = cs.splitOn c := by
  induction cs with
  | nil => rfl
  | cons x cs ih =>
    have hsplit : (x :: cs).splitOn c =
        if (x == c) = true then [] :: cs.splitOn c else (cs.splitOn c).modifyHead (List.cons x) :=
      List.splitOnP_cons_eq_if_modifyHead x cs
    have hne : cs.splitOn c ≠ [] := ih ▸ fields_ne_nil c cs
    simp only [fields, hsplit, ih, beq_iff_eq]
    split
    · rfl
    · cases hparts : cs.splitOn c with
      | nil => exact absurd hparts hne
      | cons f fs => rfl

/-- What stands between separators holds none of them. -/
theorem notMem_of_mem_fields (cs : List Char) {f : List Char} (h : f ∈ fields c cs) : c ∉ f := by
  by_cases hmem : c ∈ cs
  · obtain ⟨before, after, hcs, hbefore⟩ := List.eq_append_cons_of_mem hmem
    have hshorter : after.length < cs.length := by
      rw [hcs, List.length_append, List.length_cons]
      omega
    rw [hcs, fields_append_cons hbefore] at h
    rcases List.mem_cons.1 h with rfl | h
    · exact hbefore
    · exact notMem_of_mem_fields after h
  · rw [fields_of_notMem hmem] at h
    rwa [List.mem_singleton.1 h]
termination_by cs.length

end Text

namespace Clause

variable {name : String} {args : List String}

/-! ## What reading a clause gives -/

/-- The names and arguments that a clause can be read as. -/
structure Readable (name : String) (args : List String) : Prop where
  /-- The name is trimmed. -/
  trim_name : trim name = name
  /-- The name has no colon. -/
  colon_notMem : ':' ∉ name.toList
  /-- The arguments are trimmed. -/
  trim_arg : ∀ a ∈ args, trim a = a
  /-- The arguments have no comma. -/
  comma_notMem : ∀ a ∈ args, ',' ∉ a.toList
  /-- There is not one empty argument alone. -/
  ne_empty : args ≠ [""]

/-- What stands behind a colon is read as trimmed texts without a comma. -/
theorem of_mem_argsOfChars {cs : List Char} {a : String} (h : a ∈ argsOfChars cs) :
    trim a = a ∧ ',' ∉ a.toList := by
  unfold argsOfChars at h
  split at h
  · exact absurd h List.not_mem_nil
  · obtain ⟨f, hf, rfl⟩ := List.mem_map.1 h
    refine ⟨?_, fun hcomma => ?_⟩
    · rw [trim, String.toList_ofList, trimChars_trimChars]
    · rw [String.toList_ofList] at hcomma
      exact notMem_of_mem_fields _ hf (mem_of_mem_trimWhere hcomma)

/-- One empty argument would have to come from blanks alone, and these are no argument. -/
theorem argsOfChars_ne_empty (cs : List Char) : argsOfChars cs ≠ [""] := by
  unfold argsOfChars
  split
  · exact (List.cons_ne_nil _ _).symm
  · next hblank =>
    intro h
    obtain ⟨f, hfields, hf⟩ := List.map_eq_singleton_iff.1 h
    -- a single field is the whole text
    have hcs : f = cs := by
      have hjoin : [','].intercalate (cs.splitOn ',') = cs := List.intercalate_splitOn ','
      rw [← fields_eq_splitOn, hfields] at hjoin
      simpa [List.intercalate] using hjoin
    have hnil : trimWhere isBlank f = [] := String.ofList_inj.1 hf
    rw [hcs, trimWhere_eq_nil_iff] at hnil
    exact hblank (List.all_eq_true.2 hnil)

theorem readable_parse (text : String) : Readable (parse text).name (parse text).args where
  trim_name := by rw [parse, trim, String.toList_ofList, trimChars_trimChars]
  colon_notMem hcolon := by
    rw [parse, String.toList_ofList] at hcolon
    have hne := List.mem_takeWhile_imp (mem_of_mem_trimWhere hcolon)
    simp at hne
  trim_arg _ ha := (of_mem_argsOfChars ha).1
  comma_notMem _ ha := (of_mem_argsOfChars ha).2
  ne_empty := argsOfChars_ne_empty _

/-! ## Reading what is written -/

theorem render_nil (name : String) : render name [] = name := rfl

theorem render_of_ne_nil (name : String) (hargs : args ≠ []) :
    render name args =
      String.ofList (name.toList ++ ':' :: [','].intercalate (args.map String.toList)) := by
  rw [render, if_neg (by simpa using hargs), ← String.toList_inj]
  simp

theorem parse_of_notMem {text : String} (h : ':' ∉ text.toList) :
    parse text = ⟨trim text, [], text⟩ := by
  have hall : ∀ c ∈ text.toList, decide (c ≠ ':') = true :=
    fun c hc => decide_eq_true fun he => h (he ▸ hc)
  rw [parse, List.takeWhile_eq_self_iff.2 hall, List.dropWhile_eq_nil_iff.2 hall]
  rfl

/-- Arguments that a clause can be read as are more than blanks when they stand between commas: one
argument is not empty, and among several there is a comma. -/
theorem Readable.not_all_isBlank (h : Readable name args) (hargs : args ≠ []) :
    ¬ ([','].intercalate (args.map String.toList)).all isBlank = true := by
  rw [List.all_eq_true]
  intro hblank
  match args with
  | [] => exact hargs rfl
  | [a] =>
    have hnil : trimChars a.toList = [] := trimWhere_eq_nil_iff.2 (by simpa using hblank)
    have ha : a = "" := by rw [← h.trim_arg a List.mem_cons_self, trim, hnil]
    exact h.ne_empty (ha ▸ rfl)
  | a :: b :: rest =>
    have hcomma : isBlank ',' = true := by
      refine hblank ',' ?_
      rw [List.map_cons, List.map_cons, List.intercalate_cons_cons]
      simp
    exact absurd hcomma (by decide)

/-- Arguments are read back from what writes them between commas. -/
theorem Readable.argsOfChars_intercalate (h : Readable name args) (hargs : args ≠ []) :
    argsOfChars ([','].intercalate (args.map String.toList)) = args := by
  have hcomma : ∀ f ∈ args.map String.toList, ',' ∉ f := by
    intro f hf
    obtain ⟨a, ha, rfl⟩ := List.mem_map.1 hf
    exact h.comma_notMem a ha
  have hfields : fields ',' ([','].intercalate (args.map String.toList)) =
      args.map String.toList := by
    rw [fields_eq_splitOn]
    exact List.splitOn_intercalate ',' hcomma (by simpa using hargs)
  rw [argsOfChars, if_neg (h.not_all_isBlank hargs), hfields, List.map_map]
  exact (List.map_congr_left h.trim_arg).trans (List.map_id args)

/-- **Reading inverts writing.** -/
theorem parse_render (h : Readable name args) :
    parse (render name args) = ⟨name, args, render name args⟩ := by
  -- a colon is written only in front of arguments
  by_cases hargs : args = []
  · rw [hargs, render_nil, parse_of_notMem h.colon_notMem, h.trim_name]
  · rw [render_of_ne_nil name hargs, parse_append_colon h.colon_notMem,
      h.argsOfChars_intercalate hargs]
    exact congrArg (mk · args _) h.trim_name

/-! ## The text of a clause without blanks -/

/-- What a clause is read as, written without blanks. -/
def normal (text : String) : String := render (parse text).name (parse text).args

theorem parse_normal (text : String) :
    parse (normal text) = ⟨(parse text).name, (parse text).args, normal text⟩ :=
  parse_render (readable_parse text)

/-- Writing a clause without blanks neither makes nor unmakes a combinator. -/
theorem occurs_normal_iff (text : String) :
    Combinator.Occurs (normal text).toList ↔ Combinator.Occurs text.toList := by
  rw [occurs_iff_name_or_args, parse_normal, ← occurs_iff_name_or_args]

end Clause

end Verdict
