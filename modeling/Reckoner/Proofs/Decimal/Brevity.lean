import Reckoner.Proofs.Decimal.Nearest

/-!
Shortest decimals are short: seventeen digits tell any double from the others. On a grid of so many
digits the two neighbours of a double are nearer to one another than it is to the doubles beside it,
so that one of the two lies in its interval.
-/

namespace Reckoner.Decimal

theorem scale_left_pos (binaryExponent decimalExponent : Int) :
    0 < (Scale.between binaryExponent decimalExponent).left :=
  Nat.mul_pos (Nat.pow_pos (by decide)) (Nat.two_pow_pos _)

section
variable {above below : Nat} (aboveFilled : 0 < above) (belowFilled : 0 < below)
include belowFilled

theorem digitCount_quotient (filled : 0 < above / below) :
    10 ^ (digitCount (above / below) - 1) * below ≤ above ∧
      above < 10 ^ digitCount (above / below) * below :=
  ⟨(Nat.mul_le_mul_right below (tenTo_digitCount_le filled)).trans (Nat.div_mul_le_self _ _),
    (Nat.div_lt_iff_lt_mul belowFilled).mp (lt_tenTo_digitCount _)⟩

include aboveFilled

theorem digitCount_inverse (filled : 0 < (below - 1) / above) :
    above * 10 ^ (digitCount ((below - 1) / above) - 1) < below ∧
      below ≤ above * 10 ^ digitCount ((below - 1) / above) := by
  constructor
  · have quotient := Nat.mul_le_mul_left above (tenTo_digitCount_le filled)
    have whole := Nat.mul_div_le (below - 1) above
    omega
  · have quotient := (Nat.div_lt_iff_lt_mul aboveFilled).mp
      (lt_tenTo_digitCount ((below - 1) / above))
    rw [Nat.mul_comm] at quotient
    omega

end

section
variable {binary : Binary} (positive : 0 < binary.significand)
include positive

theorem leading_range :
    (10 : ℚ) ^ binary.leading ≤ binary.significand * 2 ^ binary.exponent ∧
      (binary.significand * 2 ^ binary.exponent : ℚ) < 10 ^ (binary.leading + 1) := by
  obtain ⟨above, aboveEq⟩ : ∃ above, binary.significand * twoTo binary.exponent.toNat = above :=
    ⟨_, rfl⟩
  obtain ⟨below, belowEq⟩ : ∃ below, twoTo (-binary.exponent).toNat = below := ⟨_, rfl⟩
  have aboveFilled : 0 < above := aboveEq ▸ Nat.mul_pos positive (Nat.two_pow_pos _)
  have belowFilled : 0 < below := belowEq ▸ Nat.two_pow_pos _
  have unit : (0 : ℚ) < below := by exact_mod_cast belowFilled
  have scaled : (above : ℚ) = binary.significand * 2 ^ binary.exponent * below := by
    rw [← aboveEq, ← belowEq, Nat.cast_mul, cast_twoTo, cast_twoTo, pow_toNat 2 (by norm_num)]
    ring
  unfold Binary.leading
  rw [aboveEq, belowEq]
  dsimp only
  split
  · rename_i large
    have filled : 0 < above / below := Nat.div_pos large belowFilled
    have some : 0 < digitCount (above / below) := Nat.length_toDigits_pos
    obtain ⟨least, most⟩ := digitCount_quotient belowFilled filled
    generalize digitCount (above / below) = count at *
    obtain ⟨fewer, rfl⟩ := Nat.exists_eq_succ_of_ne_zero (Nat.ne_of_gt some)
    have place : ((fewer + 1 : ℕ) : Int) - 1 = fewer := by omega
    have next : (fewer : Int) + 1 = (fewer + 1 : ℕ) := by omega
    rw [Nat.succ_eq_add_one] at most
    rw [Nat.succ_eq_add_one, place, next, zpow_natCast, zpow_natCast]
    constructor
    · apply le_of_mul_le_mul_right _ unit
      rw [← scaled]
      exact_mod_cast least
    · apply lt_of_mul_lt_mul_right _ (le_of_lt unit)
      rw [← scaled]
      exact_mod_cast most
  · rename_i small
    have filled : 0 < (below - 1) / above := Nat.div_pos (by omega) aboveFilled
    have some : 0 < digitCount ((below - 1) / above) := Nat.length_toDigits_pos
    obtain ⟨least, most⟩ := digitCount_inverse aboveFilled belowFilled filled
    generalize digitCount ((below - 1) / above) = count at *
    obtain ⟨fewer, rfl⟩ := Nat.exists_eq_succ_of_ne_zero (Nat.ne_of_gt some)
    have next : -((fewer + 1 : ℕ) : Int) + 1 = -(fewer : Int) := by omega
    rw [Nat.succ_eq_add_one] at most
    rw [Nat.succ_eq_add_one, next, zpow_neg, zpow_neg, zpow_natCast, zpow_natCast]
    constructor
    · rw [inv_le_iff_one_le_mul₀ (by positivity)]
      apply le_of_mul_le_mul_right _ unit
      rw [mul_right_comm, ← scaled, one_mul]
      exact_mod_cast most
    · rw [lt_inv_comm₀ (by positivity) (by positivity), ← one_div, lt_div_iff₀ (by positivity)]
      apply lt_of_mul_lt_mul_right _ (le_of_lt unit)
      rw [mul_assoc, ← scaled, one_mul, mul_comm]
      exact_mod_cast least

theorem scaled_range (count : Nat) :
    let scale := Scale.between binary.exponent (binary.leading - (count : Int) + 1)
    scale.left * 10 ^ count ≤ 10 * (binary.significand * scale.right) ∧
      binary.significand * scale.right < scale.left * 10 ^ count := by
  intro scale
  obtain ⟨unit, unitPositive, left, right⟩ :=
    scale_between binary.exponent (binary.leading - (count : Int) + 1)
  obtain ⟨least, most⟩ := leading_range positive
  have top : (scale.left : ℚ) * 10 ^ count = 10 ^ (binary.leading + 1) * unit := by
    rw [left, mul_right_comm, ← zpow_natCast, ← zpow_add₀ (by norm_num)]
    congr 2
    omega
  have value : (binary.significand * scale.right : ℚ) =
      binary.significand * 2 ^ binary.exponent * unit := by
    rw [right, mul_assoc]
  constructor
  · have cast : (scale.left : ℚ) * 10 ^ count ≤ 10 * (binary.significand * scale.right) := by
      rw [top, value, zpow_add_one₀ (by norm_num), mul_comm (_ ^ _) (10 : ℚ), mul_assoc]
      apply mul_le_mul_of_nonneg_left _ (by norm_num)
      exact mul_le_mul_of_nonneg_right least (le_of_lt unitPositive)
    exact_mod_cast cast
  · have cast : (binary.significand * scale.right : ℚ) < scale.left * 10 ^ count := by
      rw [top, value]
      exact mul_lt_mul_of_pos_right most unitPositive
    exact_mod_cast cast

theorem digits_le_of_withDigits? {tie : Tie} {count : Nat} {decimal : Digits}
    (found : binary.withDigits? tie count = some decimal) : decimal.digits ≤ 10 ^ count := by
  have most := (scaled_range positive count).2
  unfold Binary.withDigits? at found
  extract_lets exponent scale below at found
  have few : below < 10 ^ count := by
    rw [Nat.div_lt_iff_lt_mul (scale_left_pos _ _), Nat.mul_comm (10 ^ count)]
    exact most
  split at found
  · cases found
    rcases nearer_cases tie binary scale below with same | same <;> dsimp only <;> omega
  · cases found
    exact le_of_lt few
  · cases found
    exact few
  · contradiction

end

theorem digits_strip_le (decimal : Digits) : decimal.strip.digits ≤ decimal.digits := by
  fun_induction Digits.strip decimal with
  | case1 decimal zero => exact Nat.le_refl _
  | case2 decimal filled tenfold ih => exact ih.trans (Nat.div_le_self _ _)
  | case3 decimal filled last => exact Nat.le_refl _

theorem admits_of_inside {binary : Binary} (positive : 0 < binary.significand) {scale : Scale}
    {digits : Nat}
    (low : 4 * (binary.significand * scale.right) <
      4 * (digits * scale.left) + (if binary.narrow then 1 else 2) * scale.right)
    (high : 4 * (digits * scale.left) <
      4 * (binary.significand * scale.right) + 2 * scale.right) :
    binary.admits scale digits = true := by
  unfold Binary.admits
  extract_lets place lowest highest
  have placed : place = 4 * (digits * scale.left) := Nat.mul_assoc _ _ _
  have below : lowest < place := by
    have width : (if binary.narrow then 1 else 2) * scale.right ≤
        4 * (binary.significand * scale.right) := by
      rw [← Nat.mul_assoc]
      apply Nat.mul_le_mul_right
      split <;> omega
    rw [placed]
    unfold lowest
    rw [Nat.sub_mul, Nat.mul_assoc]
    omega
  have above : place < highest := by
    rw [placed]
    unfold highest
    rw [Nat.add_mul, Nat.mul_assoc]
    exact high
  split <;> simp [below, above, le_of_lt below, le_of_lt above]

/-- On the grid of seventeen digits a neighbour of a double is in its interval. -/
theorem admits_seventeen {binary : Binary} (canonical : binary.Canonical) :
    let scale := Scale.between binary.exponent (binary.leading - (17 : ℕ) + 1)
    let below := binary.significand * scale.right / scale.left
    binary.admits scale below = true ∨ binary.admits scale (below + 1) = true := by
  intro scale below
  have least : scale.left * 10 ^ 17 ≤ 10 * (binary.significand * scale.right) :=
    (scaled_range canonical.positive 17).1
  have unit : 0 < scale.right := scale_right_pos _ _
  have floor : below * scale.left ≤ binary.significand * scale.right := Nat.div_mul_le_self _ _
  have ceiling : binary.significand * scale.right < (below + 1) * scale.left :=
    Nat.lt_mul_of_div_lt (Nat.lt_succ_self below) (scale_left_pos _ _)
  have next : (below + 1) * scale.left = below * scale.left + scale.left := Nat.succ_mul _ _
  cases isNarrow : binary.narrow with
  | true =>
      -- The doubles below are nearer, but then the steps of the grid are only half as wide.
      have top := (canonical.narrow.mp isNarrow).1
      rw [top] at least ceiling floor
      right
      apply admits_of_inside canonical.positive <;> rw [top] <;> omega
  | false =>
      have few : binary.significand * scale.right ≤ 2 ^ 53 * scale.right :=
        Nat.mul_le_mul_right _ (le_of_lt canonical.small)
      have width : (if binary.narrow = true then 1 else 2) = 2 := by simp [isNarrow]
      by_cases near : 4 * (binary.significand * scale.right) <
          4 * (below * scale.left) + 2 * scale.right
      · left
        apply admits_of_inside canonical.positive
        · rwa [width]
        · omega
      · right
        apply admits_of_inside canonical.positive
        · rw [width]
          omega
        · omega

theorem withDigits?_seventeen {binary : Binary} (canonical : binary.Canonical) (tie : Tie) :
    (binary.withDigits? tie 17).isSome = true := by
  have admitted := admits_seventeen canonical
  unfold Binary.withDigits?
  extract_lets scale below at admitted
  extract_lets
  rcases admitted with lower | upper
  · rw [lower]
    cases binary.admits scale (below + 1) <;> rfl
  · rw [upper]
    cases binary.admits scale below <;> rfl

theorem shortest_digits_le {binary : Binary} (canonical : binary.Canonical) (tie : Tie) :
    (binary.shortest tie).digits ≤ 10 ^ 17 := by
  refine (digits_strip_le _).trans ?_
  cases found : (List.range' 1 17).findSome? (binary.withDigits? tie) with
  | none =>
      have last := List.findSome?_eq_none_iff.mp found 17 (by decide)
      have some := withDigits?_seventeen canonical tie
      rw [last] at some
      contradiction
  | some decimal =>
      obtain ⟨count, member, found⟩ := List.exists_of_findSome?_eq_some found
      have few : count ≤ 17 := by
        rw [List.mem_range'_1] at member
        omega
      exact (digits_le_of_withDigits? canonical.positive found).trans
        (Nat.pow_le_pow_right (by decide) few)

end Reckoner.Decimal
