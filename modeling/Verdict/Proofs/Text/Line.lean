import Mathlib.Algebra.GroupWithZero.Nat
import Mathlib.Tactic.SplitIfs
import Verdict.Text.Quoted
/-!
# Texts on one line

A text is one line if it holds no line feed. A text that is quoted is one line whatever it says,
since a line feed is written as an escape (`oneLine_quoted`). Lines that are put together with line
feeds between them make one line each, and one more for every line feed inside them
(`length_splitOn_intercalate`).
-/

namespace Verdict

/-- Whether a text holds no line feed. -/
def OneLine (s : String) : Prop := '\n' ∉ s.toList

instance (s : String) : Decidable (OneLine s) := inferInstanceAs (Decidable (¬ _))

variable {s t : String} {cs : List Char}

@[simp] theorem oneLine_append_iff : OneLine (s ++ t) ↔ OneLine s ∧ OneLine t := by
  rw [OneLine, String.toList_append, List.mem_append, not_or]
  rfl

@[simp] theorem oneLine_ofList_iff : OneLine (String.ofList cs) ↔ '\n' ∉ cs := by
  rw [OneLine, String.toList_ofList]

/-- A literal is looked through by its characters, since those of its text take long to compute. -/
theorem oneLine_words (h : '\n' ∉ cs) : OneLine (String.ofList cs) := oneLine_ofList_iff.2 h

/-- Texts of one line with one of one line between them are one line. -/
theorem oneLine_intercalate {l : List String} (hs : OneLine s) (h : ∀ t ∈ l, OneLine t) :
    OneLine (s.intercalate l) := by
  induction l with
  | nil =>
    rw [String.intercalate_nil]
    decide
  | cons t l ih =>
    obtain ⟨ht, hl⟩ := List.forall_mem_cons.1 h
    cases l with
    | nil => simpa using ht
    | cons u l =>
      rw [String.intercalate_cons_cons, oneLine_append_iff, oneLine_append_iff]
      exact ⟨⟨ht, hs⟩, ih hl⟩

/-! ## Quoted texts -/

namespace Text

theorem quoteFor_ne_lineFeed (hasSingle hasDouble : Bool) :
    quoteFor hasSingle hasDouble ≠ '\n' := by
  cases hasSingle <;> cases hasDouble <;> decide

theorem lineFeed_notMem_hexDigits (width n : Nat) : '\n' ∉ hexDigits width n := by
  have hdigit : ∀ d < 16, '\n' ≠ hexDigit d := by decide
  induction width generalizing n with
  | zero => exact List.not_mem_nil
  | succ width ih =>
    rw [hexDigits, List.mem_append, List.mem_singleton, not_or]
    exact ⟨ih _, hdigit _ (Nat.mod_lt n (by decide))⟩

theorem lineFeed_notMem_codePointEscape (n : Nat) : '\n' ∉ codePointEscape n := by
  unfold codePointEscape
  split_ifs <;> simp [lineFeed_notMem_hexDigits]

/-- The letter that stands for a control character is no line feed. -/
theorem ne_lineFeed_of_escapeLetter? {n : Nat} {l : Char} (h : escapeLetter? n = some l) :
    '\n' ≠ l := by
  unfold escapeLetter? at h
  split_ifs at h <;> cases h <;> decide

/-- A character in quotes is written without line feed. -/
theorem lineFeed_notMem_quotedChar {q : Char} (hq : q ≠ '\n') (c : Char) :
    '\n' ∉ quotedChar q c := by
  unfold quotedChar
  split
  · next hescaped =>
    rcases hescaped with rfl | rfl
    · simpa using hq.symm
    · decide
  · split
    · next l hl => simpa using ne_lineFeed_of_escapeLetter? hl
    · next hnone =>
      split
      · -- the line feed has an escape letter
        rw [List.mem_singleton]
        rintro rfl
        cases hnone
      · exact lineFeed_notMem_codePointEscape _

/-- A byte in quotes is written without line feed. -/
theorem lineFeed_notMem_quotedByte {q : Char} (hq : q ≠ '\n') (b : UInt8) :
    '\n' ∉ quotedByte q b := by
  have hprintable : ∀ n < 127, 32 ≤ n → '\n' ≠ Char.ofNat n := by decide
  unfold quotedByte
  dsimp only
  split
  · next hescaped =>
    rcases hescaped with heq | heq
    · rw [heq, Char.ofNat_toNat]
      simpa using hq.symm
    · rw [heq]
      decide
  · split
    · next l hl => simpa using ne_lineFeed_of_escapeLetter? hl
    · split
      · next hrange => simpa using hprintable _ hrange.2 hrange.1
      · exact lineFeed_notMem_codePointEscape _

/-- A quoted text is one line. -/
theorem oneLine_quoted (s : String) : OneLine (quoted s) := by
  have hquote := quoteFor_ne_lineFeed (s.toList.contains '\'') (s.toList.contains '"')
  simp only [quoted, oneLine_ofList_iff, List.mem_append, List.mem_cons, List.mem_flatMap,
    List.not_mem_nil, or_false, not_or, not_exists, not_and]
  exact ⟨⟨hquote.symm, fun c _ => lineFeed_notMem_quotedChar hquote c⟩, hquote.symm⟩

theorem oneLine_quotedBytes (bs : List UInt8) : OneLine (quotedBytes bs) := by
  have hquote := quoteFor_ne_lineFeed (bs.contains 39) (bs.contains 34)
  simp only [quotedBytes, oneLine_ofList_iff, List.mem_append, List.mem_cons, List.mem_flatMap,
    List.not_mem_nil, or_false, not_or, not_exists, not_and]
  exact ⟨⟨by decide, hquote.symm, fun b _ => lineFeed_notMem_quotedByte hquote b⟩, hquote.symm⟩

end Text

/-! ## Counting lines -/

/-- The number of line feeds in a text. -/
def lineFeeds (s : String) : Nat := s.toList.count '\n'

theorem lineFeeds_eq_zero_iff : lineFeeds s = 0 ↔ OneLine s := List.count_eq_zero

/-- A text is cut into one line more than it has line feeds. -/
theorem length_splitOn (cs : List Char) : (cs.splitOn '\n').length = cs.count '\n' + 1 := by
  induction cs with
  | nil => rfl
  | cons c cs ih =>
    rw [List.splitOn_cons_eq_if_modifyHead, List.count_cons, ← Nat.add_right_comm, ← ih]
    split <;> simp [*]

theorem lineFeeds_append (s t : String) : lineFeeds (s ++ t) = lineFeeds s + lineFeeds t := by
  simp [lineFeeds]

/-- Between texts on lines of their own stands one line feed less than there are texts. -/
theorem lineFeeds_intercalate {l : List String} (h : l ≠ []) :
    lineFeeds ("\n".intercalate l) + 1 = l.length + (l.map lineFeeds).sum := by
  induction l with
  | nil => exact absurd rfl h
  | cons s l ih =>
    cases l with
    | nil => simp [Nat.add_comm]
    | cons t l =>
      have hrest := ih (List.cons_ne_nil t l)
      have hfeed : lineFeeds "\n" = 1 := by decide
      rw [String.intercalate_cons_cons, lineFeeds_append, lineFeeds_append, hfeed, List.map_cons,
        List.sum_cons, List.length_cons]
      omega

/-- Lines that are put together make one line each, and one more for each line feed in them. -/
theorem length_splitOn_intercalate {l : List String} (h : l ≠ []) :
    (("\n".intercalate l).toList.splitOn '\n').length = l.length + (l.map lineFeeds).sum := by
  rw [length_splitOn]
  exact lineFeeds_intercalate h

end Verdict
