/-!
# Letter case

Names, spellings of truth and numerals are told apart without regard to the case of their letters.
All of them are ASCII texts, and no other character has the lower case of an ASCII letter that one
of them uses, so it is enough to lower the letters A to Z.
-/

namespace Verdict.Text

/-- The text with the letters A to Z in lower case. -/
def lowered (s : String) : String :=
  String.ofList (s.toList.map Char.toLower)

@[simp] theorem toList_lowered (s : String) : (lowered s).toList = s.toList.map Char.toLower := by
  simp [lowered]

end Verdict.Text
