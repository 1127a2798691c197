import Reckoner.Proofs.Decimal.Operations

/-!
Decimals are read as the nearest double: if a decimal lies in the interval of a double, that double
is what it is read as. The limits beyond which zero or infinity is taken at once cut nothing off.
-/

namespace Reckoner.Decimal

theorem lt_tenTo_digitCount (digits : Nat) : digits < 10 ^ digitCount digits :=
  (Nat.length_toDigits_le_iff (by decide) Nat.length_toDigits_pos).mp (Nat.le_refl _)

theorem tenTo_digitCount_le {digits : Nat} (positive : 0 < digits) :
    10 ^ (digitCount digits - 1) ≤ digits := by
  by_cases single : digitCount digits - 1 = 0
  · rw [single]
    exact positive
  · apply Nat.le_of_not_lt
    intro less
    have shorter : digitCount digits ≤ digitCount digits - 1 :=
      (Nat.length_toDigits_le_iff (by decide) (Nat.pos_of_ne_zero single)).mpr less
    omega

theorem decimal_range {digits : Nat} (positive : 0 < digits) (exponent : Int) :
    (10 : ℚ) ^ (digitCount digits + exponent - 1) ≤ digits * 10 ^ exponent ∧
      (digits * 10 ^ exponent : ℚ) < 10 ^ (digitCount digits + exponent) := by
  have unit : (0 : ℚ) < 10 ^ exponent := by positivity
  have some : 0 < digitCount digits := Nat.length_toDigits_pos
  have low : ((10 : ℚ) ^ (digitCount digits - 1)) ≤ digits := by
    exact_mod_cast tenTo_digitCount_le positive
  have high : (digits : ℚ) < 10 ^ digitCount digits := by
    exact_mod_cast lt_tenTo_digitCount digits
  constructor
  · rw [show (digitCount digits + exponent - 1 : Int) = ((digitCount digits - 1 : ℕ) : Int) +
      exponent by omega, zpow_add₀ (by norm_num), zpow_natCast]
    exact mul_le_mul_of_nonneg_right low (le_of_lt unit)
  · rw [zpow_add₀ (by norm_num), zpow_natCast]
    exact mul_lt_mul_of_pos_right high unit

theorem Binary.Covers.range {binary : Binary} {number : ℚ} (covers : binary.Covers number)
    (canonical : binary.Canonical) :
    (10 : ℚ) ^ (-400 : Int) < number ∧ number < 10 ^ (400 : Int) := by
  have powers : (2 : ℚ) ^ (1200 : Int) ≤ 10 ^ (400 : Int) := by
    calc (2 : ℚ) ^ (1200 : Int) = ((2 : ℚ) ^ 3) ^ 400 := by rw [← pow_mul]; rfl
      _ ≤ 10 ^ 400 := pow_le_pow_left₀ (by norm_num) (by norm_num) 400
      _ = 10 ^ (400 : Int) := rfl
  have above := covers.gt canonical
  have below := covers.lt canonical
  constructor
  · have least : (10 : ℚ) ^ (-400 : Int) ≤ 2 ^ (-1200 : Int) := by
      rw [zpow_neg, zpow_neg]
      exact inv_anti₀ (by positivity) powers
    have tiny : 2 * (2 : ℚ) ^ (-1200 : Int) ≤ 2 ^ (-1074 : Int) := by
      rw [← zpow_one_add₀ (by norm_num)]
      exact zpow_le_zpow_right₀ (by norm_num) (by norm_num)
    linarith
  · have most : (2 ^ 55 - 2 : ℚ) * 2 ^ binary.exponent ≤ 2 ^ (1200 : Int) := by
      calc (2 ^ 55 - 2 : ℚ) * 2 ^ binary.exponent ≤ 2 ^ 55 * 2 ^ (971 : Int) := by
            apply mul_le_mul (by norm_num) _ (by positivity) (by norm_num)
            exact zpow_le_zpow_right₀ (by norm_num) canonical.most
        _ = 2 ^ (1026 : Int) := by rw [← zpow_natCast, ← zpow_add₀ (by norm_num)]; rfl
        _ ≤ 2 ^ (1200 : Int) := zpow_le_zpow_right₀ (by norm_num) (by norm_num)
    have large : (0 : ℚ) < 10 ^ (400 : Int) := by positivity
    have four : 4 * number < 10 ^ (400 : Int) := below.trans_le (most.trans powers)
    generalize (10 : ℚ) ^ (400 : Int) = bound at large four ⊢
    linarith

theorem digitCount_le_log2 (digits : Nat) : digitCount digits ≤ digits.log2 + 1 := by
  refine (Nat.length_toDigits_le_iff (by decide) (Nat.succ_pos _)).mpr ?_
  exact Nat.lt_of_lt_of_le Nat.lt_log2_self (Nat.pow_le_pow_left (by decide) _)

theorem rounded_nearest {digits : Nat} (positive : 0 < digits) {exponent : Int}
    (high : ¬exponentLimit < digitCount digits + exponent)
    (low : ¬(digitCount digits + exponent < -exponentLimit)) :
    Rounded (nearest digits exponent) (digits * 10 ^ exponent) := by
  have bits := digitCount_le_log2 digits
  have some : 0 < digitCount digits := Nat.length_toDigits_pos
  have limit : exponentLimit = 400 := rfl
  unfold nearest
  extract_lets lead
  rw [if_neg (Nat.ne_of_gt positive), if_neg high, if_neg low]
  rw [limit] at high low
  split
  · exact rounded_ofScientific positive false _ (by simp; omega) (by omega) (by omega)
  · exact rounded_ofScientific positive true _ (by simp; omega) (by omega) (by omega)

theorem nearest_cases (digits : Nat) (exponent : Int) :
    nearest digits exponent = 0.0 ∨ nearest digits exponent = 1.0 / 0.0 ∨
      Rounded (nearest digits exponent) (digits * 10 ^ exponent) := by
  by_cases zero : digits = 0
  · left
    simp [nearest, zero]
  by_cases high : exponentLimit < digitCount digits + exponent
  · right
    left
    simp [nearest, zero, high]
  by_cases low : digitCount digits + exponent < -exponentLimit
  · left
    simp [nearest, zero, high, low]
  · exact Or.inr (Or.inr (rounded_nearest (Nat.pos_of_ne_zero zero) high low))

theorem isNegative_nearest (digits : Nat) (exponent : Int) :
    isNegative (nearest digits exponent) = false := by
  rcases nearest_cases digits exponent with zero | infinite | rounded
  · rw [zero]
    decide
  · rw [infinite]
    decide
  · exact rounded.isNegative

/-- A decimal that rounds to a double is read as that double. -/
theorem nearest_eq {value : Float} {binary : Binary} (size : sizeOf value = .finite binary)
    (sign : isNegative value = false) {digits : Nat} {exponent : Int}
    (covers : binary.Covers (digits * 10 ^ exponent)) : nearest digits exponent = value := by
  have canonical := canonical_of_sizeOfBits size
  obtain ⟨above, below⟩ := covers.range canonical
  have positive : 0 < digits := by
    apply Nat.pos_of_ne_zero
    rintro rfl
    rw [Nat.cast_zero, zero_mul] at above
    exact absurd above (not_lt_of_ge (by positivity))
  obtain ⟨least, most⟩ := decimal_range positive exponent
  have limit : exponentLimit = 400 := rfl
  have high : ¬exponentLimit < digitCount digits + exponent := by
    have less := (zpow_lt_zpow_iff_right₀ (by norm_num)).mp (lt_of_le_of_lt least below)
    omega
  have low : ¬(digitCount digits + exponent < -exponentLimit) := by
    have less := (zpow_lt_zpow_iff_right₀ (by norm_num)).mp (lt_trans above most)
    omega
  have rounded := rounded_nearest positive high low
  apply eq_of_sign_of_bits
  · rw [rounded.isNegative, sign]
  · exact bits_eq_of_sizeOfBits (rounded.sizeOf_eq canonical covers) size

end Reckoner.Decimal
