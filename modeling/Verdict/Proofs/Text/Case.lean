import Verdict.Proofs.Text.Trimming
import Verdict.Text.Case
/-!
# Lowering letters

Only the letters A to Z have another lower case, so what is the same for each of them and for its
small letter is the same for every character and for what it is lowered to (`apply_toLower`). Blanks
are no letters, and so it makes no difference whether a text is trimmed or lowered first.
-/

namespace Verdict.Text

/-- What tells no capital from its small letter tells no character from what it is lowered to. -/
theorem apply_toLower {α : Type} {f : Char → α}
    (h : ∀ n < 91, 65 ≤ n → f (Char.ofNat n).toLower = f (Char.ofNat n)) (c : Char) :
    f c.toLower = f c := by
  by_cases hupper : c.val ≥ 'A'.val ∧ c.val ≤ 'Z'.val
  · have hletter := h c.toNat (Nat.lt_succ_of_le hupper.2) hupper.1
    rwa [Char.ofNat_toNat] at hletter
  · have hsame : c.toLower = c := dif_neg hupper
    rw [hsame]

/-- No letter is a blank, so lowering letters neither makes nor unmakes a blank. -/
theorem isBlank_toLower (c : Char) : isBlank c.toLower = isBlank c :=
  apply_toLower (by decide) c

theorem toLower_toLower (c : Char) : c.toLower.toLower = c.toLower :=
  apply_toLower (by decide) c

theorem trimChars_map_toLower (cs : List Char) :
    trimChars (cs.map Char.toLower) = (trimChars cs).map Char.toLower :=
  trimWhere_map isBlank_toLower cs

theorem lowered_trim (s : String) : lowered (trim s) = trim (lowered s) := by
  rw [← String.toList_inj, toList_lowered, toList_trim, toList_trim, toList_lowered,
    trimChars_map_toLower]

theorem lowered_lowered (s : String) : lowered (lowered s) = lowered s := by
  rw [← String.toList_inj, toList_lowered, toList_lowered, List.map_map]
  exact List.map_congr_left fun c _ => toLower_toLower c

end Verdict.Text
