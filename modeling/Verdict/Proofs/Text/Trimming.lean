import Mathlib.Data.List.DropRight
import Mathlib.Data.List.TakeWhile
import Verdict.Text.Blank
/-!
# Trimmed texts

Trimming drops the characters of a class at both ends of a text. What is left begins and ends with
characters outside the class, so trimming it again, for this class or a smaller one, changes nothing
(`trimWhere_trimWhere`). And it is all of the text from the first character outside the class to
the last one, so nothing is left only of a text that has none.
-/

namespace Verdict.Text

variable {p q : Char → Bool}

theorem trimWhere_eq (p : Char → Bool) (cs : List Char) :
    trimWhere p cs = (cs.dropWhile p).rdropWhile p := rfl

/-- Characters of the class around a text make no difference. -/
theorem trimWhere_append {before after : List Char} (hbefore : ∀ c ∈ before, p c = true)
    (hafter : ∀ c ∈ after, p c = true) (cs : List Char) :
    trimWhere p (before ++ (cs ++ after)) = trimWhere p cs := by
  have hdrop : (before ++ (cs ++ after)).dropWhile p = (cs ++ after).dropWhile p :=
    List.dropWhile_append_of_pos hbefore
  have hrdrop : ∀ l : List Char, (l ++ after).rdropWhile p = l.rdropWhile p := by
    intro l
    rw [List.rdropWhile, List.reverse_append,
      List.dropWhile_append_of_pos fun c hc => hafter c (List.mem_reverse.1 hc), List.rdropWhile]
  rw [trimWhere_eq, hdrop, List.dropWhile_append, trimWhere_eq]
  split
  · next hempty =>
    have hall : after.dropWhile p = [] := List.dropWhile_eq_nil_iff.2 hafter
    rw [List.isEmpty_iff.1 hempty, hall]
  · exact hrdrop _

/-- A text without the characters of a class at its ends has none of a smaller class there. -/
theorem trimWhere_trimWhere (hpq : ∀ c, p c = true → q c = true) (cs : List Char) :
    trimWhere p (trimWhere q cs) = trimWhere q cs := by
  have hfirst : (trimWhere q cs).dropWhile p = trimWhere q cs := by
    refine List.dropWhile_eq_self_iff.2 fun hlength hp => ?_
    have hprefix : trimWhere q cs <+: cs.dropWhile q := List.rdropWhile_prefix q _
    have hpos : 0 < (cs.dropWhile q).length := lt_of_lt_of_le hlength hprefix.length_le
    have hnot := List.dropWhile_get_zero_not q cs hpos
    rw [List.get_eq_getElem, ← hprefix.getElem hlength] at hnot
    exact hnot (hpq _ hp)
  have hlast : (trimWhere q cs).rdropWhile p = trimWhere q cs := by
    refine List.rdropWhile_eq_self_iff.2 fun hne hp => ?_
    exact List.rdropWhile_last_not q _ hne (hpq _ hp)
  rw [trimWhere_eq p, hfirst, hlast]

theorem mem_of_mem_trimWhere {c : Char} {cs : List Char} (h : c ∈ trimWhere p cs) : c ∈ cs := by
  have hkept : trimWhere p cs <+: cs.dropWhile p := List.rdropWhile_prefix p _
  exact (List.dropWhile_suffix p).subset (hkept.subset h)

/-- What trimming drops are characters of the class, in front of what it keeps and behind it. -/
theorem exists_of_trimWhere (p : Char → Bool) (cs : List Char) :
    ∃ before after, cs = before ++ (trimWhere p cs ++ after) ∧
      (∀ c ∈ before, p c = true) ∧ ∀ c ∈ after, p c = true := by
  have hfront : cs = cs.takeWhile p ++ cs.dropWhile p := List.takeWhile_append_dropWhile.symm
  have hback : cs.dropWhile p = (cs.dropWhile p).rdropWhile p ++ (cs.dropWhile p).rtakeWhile p :=
    List.rdropWhile_append_rtakeWhile.symm
  refine ⟨cs.takeWhile p, (cs.dropWhile p).rtakeWhile p, ?_, ?_, ?_⟩
  · rw [trimWhere_eq, ← hback, ← hfront]
  · exact fun c hc => List.mem_takeWhile_imp hc
  · exact fun c hc => List.mem_rtakeWhile_imp hc

/-- A change of characters that respects the class commutes with trimming. -/
theorem trimWhere_map {f : Char → Char} (h : ∀ c, p (f c) = p c) (cs : List Char) :
    trimWhere p (cs.map f) = (trimWhere p cs).map f := by
  have hclass : p ∘ f = p := funext h
  rw [trimWhere, List.dropWhile_map, ← List.map_reverse, List.dropWhile_map, ← List.map_reverse,
    hclass, trimWhere]

/-- Nothing is left exactly of a text that has no characters outside the class. -/
theorem trimWhere_eq_nil_iff {cs : List Char} : trimWhere p cs = [] ↔ ∀ c ∈ cs, p c = true := by
  rw [trimWhere_eq, List.rdropWhile_eq_nil_iff]
  constructor
  · intro h
    -- the first character that is kept at the front would be outside the class
    have hdrop : cs.dropWhile p = [] := by
      refine Classical.byContradiction fun hne => ?_
      have hpos : 0 < (cs.dropWhile p).length := List.length_pos_iff.2 hne
      exact List.dropWhile_get_zero_not p cs hpos (h _ (List.get_mem _ _))
    exact List.dropWhile_eq_nil_iff.1 hdrop
  · intro h c hc
    exact h c ((List.dropWhile_suffix p).subset hc)

/-- A trimmed text has no blanks left to trim. -/
theorem trimChars_trimChars (cs : List Char) : trimChars (trimChars cs) = trimChars cs :=
  trimWhere_trimWhere (fun _ => id) cs

/-- Blanks around a text are trimmed off. -/
theorem trim_append {before after : String} (hbefore : isBlankText before = true)
    (hafter : isBlankText after = true) (s : String) : trim (before ++ s ++ after) = trim s := by
  rw [← String.toList_inj, toList_trim, toList_trim, String.toList_append, String.toList_append,
    List.append_assoc]
  exact trimWhere_append (List.all_eq_true.1 hbefore) (List.all_eq_true.1 hafter) _

/-- What is trimmed off a text are blanks around it. -/
theorem exists_of_trim (s : String) :
    ∃ before after, s = before ++ trim s ++ after ∧ isBlankText before = true ∧
      isBlankText after = true := by
  obtain ⟨before, after, hs, hbefore, hafter⟩ := exists_of_trimWhere isBlank s.toList
  refine ⟨String.ofList before, String.ofList after, ?_, ?_, ?_⟩
  · rw [← String.toList_inj, String.toList_append, String.toList_append, String.toList_ofList,
      String.toList_ofList, toList_trim, List.append_assoc]
    exact hs
  · rw [isBlankText, String.toList_ofList]
    exact List.all_eq_true.2 hbefore
  · rw [isBlankText, String.toList_ofList]
    exact List.all_eq_true.2 hafter

end Verdict.Text
