import EnvTemplates.Text.Basic
import Mathlib

/-!
# ASCII letters and digits

`Char.toLower` moves the letters `A` to `Z` and leaves every other character alone, so a character
takes as many bytes as before, and letters and digits stay letters and digits. None of them is a
blank.
-/

namespace EnvTemplates.Text

variable {c : Char}

theorem isAlphanum_iff : c.isAlphanum = true ↔
    65 ≤ c.toNat ∧ c.toNat ≤ 90 ∨ 97 ≤ c.toNat ∧ c.toNat ≤ 122 ∨ 48 ≤ c.toNat ∧ c.toNat ≤ 57 := by
  simp only [Char.isAlphanum, Char.isAlpha, Char.isUpper, Char.isLower, Char.isDigit,
    Bool.or_eq_true, Bool.and_eq_true, decide_eq_true_eq, ge_iff_le, UInt32.le_iff_toNat_le]
  exact or_assoc

theorem isAlphanum_toLower (c : Char) : c.toLower.isAlphanum = c.isAlphanum := by
  by_cases hupper : c.isUpper = true
  · have hletter : c.isAlpha = true := by rw [Char.isAlpha, hupper, Bool.true_or]
    rw [Char.isAlphanum, Char.isAlphanum, Char.isAlpha_toLower_eq_isAlpha, hletter, Bool.true_or,
      Bool.true_or]
  · rw [Char.toLower_eq_of_not_isUpper hupper]

theorem isBlank_eq_false_of_isAlphanum (h : c.isAlphanum = true) : isBlank c = false := by
  rw [isAlphanum_iff] at h
  simp only [isBlank, Bool.or_eq_false_iff, Bool.and_eq_false_iff, decide_eq_false_iff_not,
    beq_eq_false_iff_ne]
  omega

/-! ### Bytes -/

theorem utf8Size_of_isAlphanum (h : c.isAlphanum = true) : c.utf8Size = 1 := by
  have hascii : c.toNat ≤ 127 := by
    rw [isAlphanum_iff] at h
    omega
  exact Char.utf8Size_eq_one_iff.2 (UInt32.le_iff_toNat_le.2 hascii)

theorem utf8Size_toLower (c : Char) : c.toLower.utf8Size = c.utf8Size := by
  by_cases halnum : c.isAlphanum = true
  · have hlower : c.toLower.isAlphanum = true := (isAlphanum_toLower c).trans halnum
    rw [utf8Size_of_isAlphanum halnum, utf8Size_of_isAlphanum hlower]
  · have hupper : ¬ c.isUpper = true := by
      intro hupper
      rw [Char.isAlphanum, Char.isAlpha, hupper] at halnum
      exact halnum rfl
    rw [Char.toLower_eq_of_not_isUpper hupper]

theorem byteLength_map_toLower (t : Text) : byteLength (t.map Char.toLower) = byteLength t := by
  simp only [byteLength, List.map_map, Function.comp_def, utf8Size_toLower]

end EnvTemplates.Text
