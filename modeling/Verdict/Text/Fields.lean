/-!
# Fields

Texts with a separator, such as arguments between commas, paths and numbers with colons, are cut at
each occurrence of it. The parts may be empty, and there is always at least one.
-/

namespace Verdict.Text

/-- The parts of a row of characters between the occurrences of a separator. -/
def fields (separator : Char) : List Char → List (List Char)
  | [] => [[]]
  | c :: cs =>
    if c = separator then [] :: fields separator cs
    else
      match fields separator cs with
      | [] => [[c]]
      | f :: fs => (c :: f) :: fs

@[simp] theorem fields_nil (separator : Char) : fields separator [] = [[]] := rfl

/-- There is always at least one part. -/
theorem fields_ne_nil (separator : Char) (cs : List Char) : fields separator cs ≠ [] := by
  cases cs with
  | nil => simp
  | cons c cs =>
    simp only [fields]
    split
    · simp
    · split <;> simp

/-- Characters without the separator are one part. -/
theorem fields_of_notMem {separator : Char} {cs : List Char} (h : separator ∉ cs) :
    fields separator cs = [cs] := by
  induction cs with
  | nil => rfl
  | cons c cs ih =>
    have hc : c ≠ separator := fun hc => h (hc ▸ List.mem_cons_self)
    rw [fields, if_neg hc, ih fun hm => h (List.mem_cons_of_mem c hm)]

/-- The first separator ends the first part. -/
theorem fields_append_cons {separator : Char} {cs : List Char} (h : separator ∉ cs)
    (rest : List Char) :
    fields separator (cs ++ separator :: rest) = cs :: fields separator rest := by
  induction cs with
  | nil => rw [List.nil_append, fields, if_pos rfl]
  | cons c cs ih =>
    have hc : c ≠ separator := fun hc => h (hc ▸ List.mem_cons_self)
    rw [List.cons_append, fields, if_neg hc, ih fun hm => h (List.mem_cons_of_mem c hm)]

end Verdict.Text
