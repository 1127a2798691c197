import Reckoner.Alphabet

/-!
Theory of the alphabet. Digits, letters, points and blanks are classes without a common character,
and lower case makes letters of letters only.
-/

namespace Reckoner.Alphabet

open Reckoner.Text

theorem isDigit_iff (c : Char) : isDigit c = true ↔ 48 ≤ c.toNat ∧ c.toNat ≤ 57 := by
  simp [isDigit, Char.le_def, UInt32.le_iff_toNat_le]

theorem isLetter_iff (c : Char) :
    isLetter c = true ↔
      97 ≤ c.toNat ∧ c.toNat ≤ 122 ∨ 65 ≤ c.toNat ∧ c.toNat ≤ 90 := by
  simp [isLetter, Char.le_def, UInt32.le_iff_toNat_le]

theorem isLetter_of_isDigit {c : Char} (digit : isDigit c = true) : isLetter c = false := by
  rw [isDigit_iff] at digit
  rw [Bool.eq_false_iff, ne_eq, isLetter_iff]
  omega

theorem isDigit_of_isLetter {c : Char} (letter : isLetter c = true) : isDigit c = false := by
  rw [isLetter_iff] at letter
  rw [Bool.eq_false_iff, ne_eq, isDigit_iff]
  omega

theorem isLetter_toLower (c : Char) : isLetter c.toLower = isLetter c := by
  unfold Char.toLower
  split
  · rename_i upper
    have bounds : 65 ≤ c.toNat ∧ c.toNat ≤ 90 := by
      simpa [UInt32.le_iff_toNat_le] using upper
    have moved : (c.val + ('a'.val - 'A'.val)).toNat = c.toNat + 32 := by
      have gap : ('a'.val - 'A'.val).toNat = 32 := rfl
      rw [UInt32.toNat_add, Char.toNat_val, gap]
      omega
    rw [Bool.eq_iff_iff, isLetter_iff, isLetter_iff, Char.toNat, moved]
    omega
  · rfl

theorem isBlank_of_toNat {c : Char} (lower : 0x20 < c.toNat) (upper : c.toNat < 0x7F) :
    isBlank c = false := by
  simp only [isBlank, Bool.or_eq_false_iff, Bool.and_eq_false_imp, decide_eq_true_eq,
    decide_eq_false_iff_not, beq_eq_false_iff_ne, ne_eq]
  omega

theorem isBlank_of_isDigit {c : Char} (digit : isDigit c = true) : isBlank c = false := by
  rw [isDigit_iff] at digit
  exact isBlank_of_toNat (by omega) (by omega)

theorem isBlank_of_isLetter {c : Char} (letter : isLetter c = true) : isBlank c = false := by
  rw [isLetter_iff] at letter
  exact isBlank_of_toNat (by omega) (by omega)

theorem classes_of_isParenthesis {c : Char} (parenthesis : isParenthesis c = true) :
    isDigit c = false ∧ isLetter c = false ∧ isPoint c = false ∧ isBlank c = false := by
  rw [isParenthesis, Bool.or_eq_true, beq_iff_eq, beq_iff_eq] at parenthesis
  rcases parenthesis with rfl | rfl <;> decide

theorem isLetter_of_isPoint {c : Char} (point : isPoint c = true) : isLetter c = false := by
  rw [isPoint, beq_iff_eq] at point
  rw [point]
  rfl

theorem isBlank_of_isPoint {c : Char} (point : isPoint c = true) : isBlank c = false := by
  rw [isPoint, beq_iff_eq] at point
  rw [point]
  rfl

end Reckoner.Alphabet
