import Mathlib.Data.List.DropRight
import Mathlib.Data.List.Forall2
import Verdict.Report.Text
/-!
# The columns of a text report

A text report is a table with two columns, the first as wide as the longest name. Nothing marks
where a name ends: names may hold spaces, look like results or be empty. But the width of the column
is enough to read the table back, since a line is cut there whatever the name is
(`text_columns`). What cannot be told is how many spaces a name ends with.
-/

namespace Verdict.Report

/-! ## Lines -/

/-- Whether characters are the line of a result in a table whose first column has a width. -/
structure IsLine (width : Nat) (r : RuleResult) (cs : List Char) : Prop where
  /-- The line is as long as its first column. -/
  length_column : (cs.take width).length = width
  /-- The first column holds the name, and nothing but spaces behind it. -/
  column : ∃ n, cs.take width = r.name.toList ++ List.replicate n ' '
  /-- Behind it are two spaces and the result. -/
  behind : cs.drop width = ' ' :: ' ' :: (if r.holds then "true" else "false").toList

/-- A text without the spaces behind it. -/
def withoutSpaces (cs : List Char) : List Char := cs.rdropWhile (· = ' ')

/-- The result that characters are. -/
def result? (cs : List Char) : Option Bool :=
  if cs = "true".toList then some true else if cs = "false".toList then some false else none

/-- What a line says when it is cut at a width: a name, and a result behind two spaces. -/
def readLine? (width : Nat) (cs : List Char) : Option (List Char × Bool) :=
  match cs.drop width with
  | ' ' :: ' ' :: rest => (result? rest).map fun b => (withoutSpaces (cs.take width), b)
  | _ => none

variable {rs : List RuleResult} {r : RuleResult} {width : Nat} {cs : List Char}

theorem withoutSpaces_append_spaces (cs : List Char) (n : Nat) :
    withoutSpaces (cs ++ List.replicate n ' ') = withoutSpaces cs := by
  rw [withoutSpaces, List.rdropWhile, List.reverse_append,
    List.dropWhile_append_of_pos (by simp), withoutSpaces, List.rdropWhile]

theorem result?_toList (b : Bool) : result? (if b then "true" else "false").toList = some b := by
  cases b <;> decide

/-- The line of a result says its name, but for spaces at the end, and the result. -/
theorem IsLine.readLine? (h : IsLine width r cs) :
    readLine? width cs = some (withoutSpaces r.name.toList, r.holds) := by
  obtain ⟨n, hcolumn⟩ := h.column
  rw [Report.readLine?, h.behind]
  simp only [result?_toList, Option.map_some, hcolumn, withoutSpaces_append_spaces]

theorem toList_line (width : Nat) (r : RuleResult) : (line width r).toList =
    (r.name.toList ++ List.replicate (width - r.name.length) ' ') ++
      ' ' :: ' ' :: (if r.holds then "true" else "false").toList := by
  simp [line, padded, resultText]

/-- The line of a result is one in every table that has room for its name. -/
theorem isLine_line (h : r.name.length ≤ width) : IsLine width r (line width r).toList := by
  have hlength : (r.name.toList ++ List.replicate (width - r.name.length) ' ').length = width := by
    rw [List.length_append, List.length_replicate, String.length_toList]
    omega
  rw [toList_line]
  exact ⟨by rw [List.take_left' hlength, hlength], ⟨_, List.take_left' hlength⟩,
    List.drop_left' hlength⟩

/-- A line holds a line feed only if the name does. -/
theorem lineFeed_notMem_line (h : '\n' ∉ r.name.toList) (width : Nat) :
    '\n' ∉ (line width r).toList := by
  have hresult : ∀ b : Bool, '\n' ∉ (if b then "true" else "false").toList := by decide
  simp [toList_line, h, hresult]

/-! ## Tables -/

theorem max?_length_names (hne : rs ≠ []) :
    (rs.map fun r => r.name.length).max? = some (nameWidth rs) := by
  cases rs with
  | nil => exact absurd rfl hne
  | cons r rs =>
    rw [List.map_cons, List.max?_cons', List.foldl_map, nameWidth, List.foldl_cons, Nat.zero_max]

/-- A report that has results is made of their lines. -/
theorem splitOn_text (hne : rs ≠ []) (hnames : ∀ r ∈ rs, '\n' ∉ r.name.toList) :
    (text rs).toList.splitOn '\n' = rs.map fun r => (line (nameWidth rs) r).toList := by
  have hfeed : ∀ l ∈ rs.map fun r => (line (nameWidth rs) r).toList, '\n' ∉ l :=
    List.forall_mem_map.2 fun r hr => lineFeed_notMem_line (hnames r hr) _
  rw [text, if_neg (by simpa using hne), String.toList_intercalate, List.map_map]
  exact List.splitOn_intercalate '\n' hfeed (by simpa using hne)

/-- **A text report can be read back.** Let no name hold a line feed. Then a report that has results
has one line for each of them, in order, and each line is that of its result in a table whose first
column is as wide as the longest name; so cutting the lines there gives every result, and every name
but for the spaces at its end. -/
theorem text_columns (hne : rs ≠ []) (hnames : ∀ r ∈ rs, '\n' ∉ r.name.toList) :
    ∃ width, (rs.map fun r => r.name.length).max? = some width ∧
      List.Forall₂ (IsLine width) rs ((text rs).toList.splitOn '\n') ∧
      ((text rs).toList.splitOn '\n').map (readLine? width) =
        rs.map fun r => some (withoutSpaces r.name.toList, r.holds) := by
  have hmax := max?_length_names hne
  have hlines : ∀ r ∈ rs, IsLine (nameWidth rs) r (line (nameWidth rs) r).toList :=
    fun r hr => isLine_line ((List.max?_eq_some_iff.1 hmax).2 _ (List.mem_map_of_mem hr))
  rw [splitOn_text hne hnames]
  refine ⟨nameWidth rs, hmax, ?_, ?_⟩
  · rw [List.forall₂_map_right_iff, List.forall₂_same]
    exact hlines
  · rw [List.map_map]
    exact List.map_congr_left fun r hr => (hlines r hr).readLine?

/-- A name that ends with a space is as long as one that looks like a result. -/
theorem text_columns_of_spaces :
    let rs : List RuleResult := [⟨"été ", "always", true⟩, ⟨"true", "never", false⟩]
    (rs ≠ [] ∧ ∀ r ∈ rs, '\n' ∉ r.name.toList) ∧ text rs = "été   true\ntrue  false" ∧
      ((text rs).toList.splitOn '\n').map (readLine? 4) =
        [some ("été".toList, true), some ("true".toList, false)] := by
  intro rs
  have hne : rs ≠ [] := List.cons_ne_nil _ _
  have hnames : ∀ r ∈ rs, '\n' ∉ r.name.toList := by decide
  obtain ⟨width, hwidth, -, hread⟩ := text_columns hne hnames
  have hfour : width = 4 := by
    have hmax : (rs.map fun r => r.name.length).max? = some 4 := by decide
    exact Option.some.inj (hwidth.symm.trans hmax)
  rw [hfour] at hread
  exact ⟨⟨hne, hnames⟩, by decide, hread.trans (by decide)⟩

end Verdict.Report
