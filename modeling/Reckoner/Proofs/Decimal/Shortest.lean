import Mathlib.Tactic.SplitIfs
import Reckoner.Decimal.Shortest

/-!
Theory of shortest decimals: the decimal of a positive value has positive digits, whichever grid it
is found on.
-/

namespace Reckoner.Decimal

variable {binary : Binary}

theorem scale_right_pos (binaryExponent decimalExponent : Int) :
    0 < (Scale.between binaryExponent decimalExponent).right :=
  Nat.mul_pos (Nat.two_pow_pos _) (Nat.pow_pos (by decide))

theorem not_admits_zero (positive : 0 < binary.significand) {scale : Scale}
    (unit : 0 < scale.right) : binary.admits scale 0 = false := by
  have low : 0 < (4 * binary.significand - if binary.narrow then 1 else 2) * scale.right := by
    apply Nat.mul_pos _ unit
    split <;> omega
  simp [Binary.admits, Nat.not_le_of_lt low]

theorem le_nearer (tie : Tie) (scale : Scale) (below : Nat) :
    below ≤ binary.nearer tie scale below := by
  unfold Binary.nearer
  extract_lets twice middle
  cases tie <;> dsimp only <;> split_ifs <;> omega

theorem digits_pos_of_withDigits? (positive : 0 < binary.significand) {tie : Tie} {count : Nat}
    {decimal : Digits} (found : binary.withDigits? tie count = some decimal) :
    0 < decimal.digits := by
  unfold Binary.withDigits? at found
  extract_lets exponent scale below at found
  have refused : binary.admits scale 0 = false :=
    not_admits_zero positive (scale_right_pos _ _)
  have filled (admitted : binary.admits scale below = true) : 0 < below := by
    apply Nat.pos_of_ne_zero
    intro zero
    rw [zero, refused] at admitted
    contradiction
  split at found
  · rename_i admitted _
    cases found
    exact Nat.lt_of_lt_of_le (filled admitted) (le_nearer tie scale below)
  · rename_i admitted _
    cases found
    exact filled admitted
  · cases found
    exact Nat.succ_pos below
  · contradiction

theorem digits_pos_of_exact (positive : 0 < binary.significand) : 0 < binary.exact.digits :=
  Nat.mul_pos (Nat.mul_pos positive (Nat.two_pow_pos _)) (Nat.pow_pos (by decide))

theorem strip_pos {decimal : Digits} (positive : 0 < decimal.digits) :
    0 < decimal.strip.digits := by
  fun_induction Digits.strip decimal with
  | case1 decimal zero => omega
  | case2 decimal filled tenfold ih => exact ih (by dsimp only; omega)
  | case3 decimal filled last => exact positive

theorem shortest_pos (positive : 0 < binary.significand) (tie : Tie) :
    0 < (binary.shortest tie).digits := by
  apply strip_pos
  cases found : (List.range' 1 17).findSome? (binary.withDigits? tie) with
  | none => exact digits_pos_of_exact positive
  | some decimal =>
      obtain ⟨count, _, found⟩ := List.exists_of_findSome?_eq_some found
      exact digits_pos_of_withDigits? positive found

end Reckoner.Decimal
