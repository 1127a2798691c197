import Mathlib.Algebra.Order.Field.Power
import Mathlib.Tactic.Linarith
import Mathlib.Tactic.NormNum
import Mathlib.Tactic.Positivity
import Mathlib.Tactic.Ring
import Reckoner.Proofs.Decimal.Binary
import Reckoner.Proofs.Decimal.Shortest

/-!
The intervals of the numbers that round to a double. The shortest decimal of a double lies in the
double's interval, and no number lies in the intervals of two doubles. So the shortest decimal tells
its double.
-/

namespace Reckoner.Decimal

def Digits.value (decimal : Digits) : ℚ :=
  decimal.digits * (10 : ℚ) ^ decimal.exponent

/-- Whether a number rounds to a double. Of the two ends of the interval the lower one is nearer to
a narrow double, and both belong to it if its significand is even. -/
structure Binary.Covers (binary : Binary) (number : ℚ) : Prop where
  low : (4 * binary.significand - (if binary.narrow then 1 else 2) : ℚ) * 2 ^ binary.exponent ≤
    4 * number
  high : 4 * number ≤ (4 * binary.significand + 2 : ℚ) * 2 ^ binary.exponent
  inside : binary.significand % 2 = 1 →
    (4 * binary.significand - (if binary.narrow then 1 else 2) : ℚ) * 2 ^ binary.exponent <
        4 * number ∧
      4 * number < (4 * binary.significand + 2 : ℚ) * 2 ^ binary.exponent

/-- The form in which a double that is neither zero nor infinite has one significand and one
exponent. -/
structure Binary.Canonical (binary : Binary) : Prop where
  positive : 0 < binary.significand
  small : binary.significand < 2 ^ 53
  least : -1074 ≤ binary.exponent
  most : binary.exponent ≤ 971
  large : binary.exponent ≠ -1074 → 2 ^ 52 ≤ binary.significand
  narrow : binary.narrow = true ↔ binary.significand = 2 ^ 52 ∧ binary.exponent ≠ -1074

theorem fields_of_sizeOfBits {bits : Nat} {binary : Binary}
    (size : sizeOfBits bits = .finite binary) :
    ∃ fraction biased, fraction < 2 ^ 52 ∧ biased < 2047 ∧
      bits % 2 ^ 63 = biased * 2 ^ 52 + fraction ∧
      if biased = 0 then 0 < fraction ∧ binary = ⟨fraction, -1074, false⟩
      else binary = ⟨2 ^ 52 + fraction, (biased : Int) - 1075, fraction == 0 && biased != 1⟩ := by
  have power52 : twoTo 52 = 4503599627370496 := rfl
  have power11 : twoTo 11 = 2048 := rfl
  unfold sizeOfBits at size
  rw [power52, power11] at size
  extract_lets fraction biased at size
  refine ⟨fraction, biased, by omega, ?_, by omega, ?_⟩
  · split_ifs at size <;> omega
  · split_ifs at size with _ _ bottom <;> cases size
    · simp [bottom]
      omega
    · simp [bottom]

theorem canonical_of_sizeOfBits {bits : Nat} {binary : Binary}
    (size : sizeOfBits bits = .finite binary) : binary.Canonical := by
  obtain ⟨fraction, biased, low, high, -, fields⟩ := fields_of_sizeOfBits size
  split at fields
  · obtain ⟨positive, rfl⟩ := fields
    exact ⟨positive, by dsimp only; omega, by simp, by simp, by simp, by simp⟩
  · subst fields
    refine ⟨by simp, by dsimp only; omega, by dsimp only; omega, by dsimp only; omega, by simp, ?_⟩
    simp
    omega

theorem bits_eq_of_sizeOfBits {bits bits' : Nat} {binary : Binary}
    (size : sizeOfBits bits = .finite binary) (size' : sizeOfBits bits' = .finite binary) :
    bits % 2 ^ 63 = bits' % 2 ^ 63 := by
  obtain ⟨fraction, biased, low, high, whole, fields⟩ := fields_of_sizeOfBits size
  obtain ⟨fraction', biased', low', high', whole', fields'⟩ := fields_of_sizeOfBits size'
  rw [whole, whole']
  split at fields <;> split at fields' <;> simp_all
  omega

theorem eq_of_sign_of_bits {value other : Float} (sign : isNegative value = isNegative other)
    (bits : value.toBits.toNat % 2 ^ 63 = other.toBits.toNat % 2 ^ 63) : value = other := by
  have power63 : twoTo 63 = 2 ^ 63 := rfl
  have small := value.toBits.toNat_lt
  have small' := other.toBits.toNat_lt
  simp only [isNegative, power63, decide_eq_decide] at sign
  exact toBits_inj (by omega)

theorem Binary.Canonical.low_le {binary : Binary} (canonical : binary.Canonical)
    (above : binary.exponent ≠ -1074) :
    (2 ^ 54 - 1 : ℚ) ≤ 4 * binary.significand - (if binary.narrow then 1 else 2) := by
  have large := canonical.large above
  have narrow := canonical.narrow
  cases isNarrow : binary.narrow with
  | true =>
      rw [(narrow.mp isNarrow).1]
      norm_num
  | false =>
      have more : 2 ^ 52 + 1 ≤ binary.significand := by
        have other : binary.significand ≠ 2 ^ 52 := by
          intro same
          simp [isNarrow, same, above] at narrow
        omega
      have cast : (2 ^ 52 + 1 : ℚ) ≤ binary.significand := by exact_mod_cast more
      simp only [Bool.false_eq_true, if_false]
      linarith

theorem Binary.Covers.lt {binary : Binary} {number : ℚ} (covers : binary.Covers number)
    (canonical : binary.Canonical) :
    4 * number < (2 ^ 55 - 2) * 2 ^ binary.exponent := by
  have unit : (0 : ℚ) < 2 ^ binary.exponent := by positivity
  have small := canonical.small
  rcases Nat.mod_two_eq_zero_or_one binary.significand with even | odd
  · have even : binary.significand + 2 ≤ 2 ^ 53 := by omega
    have cast : (binary.significand + 2 : ℚ) ≤ 2 ^ 53 := by exact_mod_cast even
    exact lt_of_le_of_lt covers.high (mul_lt_mul_of_pos_right (by linarith) unit)
  · have cast : (binary.significand + 1 : ℚ) ≤ 2 ^ 53 := by exact_mod_cast small
    exact lt_of_lt_of_le (covers.inside odd).2
      (mul_le_mul_of_nonneg_right (by linarith) (le_of_lt unit))

section
variable {left right : Binary} {number : ℚ}

theorem Binary.Covers.apart (covers : left.Covers number) (canonical : left.Canonical)
    (canonical' : right.Canonical) (lower : left.exponent < right.exponent) :
    ¬right.Covers number := by
  intro covers'
  have least := canonical.least
  have double : 2 * (2 : ℚ) ^ left.exponent ≤ 2 ^ right.exponent := by
    rw [← zpow_one_add₀ (by norm_num)]
    exact zpow_le_zpow_right₀ (by norm_num) (by omega)
  have above : (2 ^ 54 - 1 : ℚ) * 2 ^ right.exponent ≤ 4 * number :=
    le_trans (mul_le_mul_of_nonneg_right (canonical'.low_le (by omega)) (by positivity))
      covers'.low
  have below := covers.lt canonical
  linarith

theorem Binary.Covers.apart_of_lt (covers : left.Covers number)
    (same : left.exponent = right.exponent) (lower : left.significand < right.significand) :
    ¬right.Covers number := by
  intro covers'
  have unit : (0 : ℚ) < 2 ^ right.exponent := by positivity
  have low := covers'.low
  have high := covers.high
  rw [same] at high
  have step : (left.significand + 1 : ℚ) ≤ right.significand := by exact_mod_cast lower
  have half : (if right.narrow then 1 else 2 : ℚ) ≤ 2 := by split <;> norm_num
  have meet : (4 * left.significand + 2 : ℚ) * 2 ^ right.exponent ≤
      (4 * right.significand - (if right.narrow then 1 else 2)) * 2 ^ right.exponent :=
    mul_le_mul_of_nonneg_right (by linarith) (le_of_lt unit)
  rcases Nat.mod_two_eq_zero_or_one left.significand with even | odd
  · rcases Nat.mod_two_eq_zero_or_one right.significand with even' | odd'
    · have far : left.significand + 2 ≤ right.significand := by omega
      have cast : (left.significand + 2 : ℚ) ≤ right.significand := by exact_mod_cast far
      have strict : (4 * left.significand + 2 : ℚ) * 2 ^ right.exponent <
          (4 * right.significand - (if right.narrow then 1 else 2)) * 2 ^ right.exponent :=
        mul_lt_mul_of_pos_right (by linarith) unit
      linarith
    · have strict := (covers'.inside odd').1
      linarith
  · have strict := (covers.inside odd).2
    rw [same] at strict
    linarith

theorem Binary.Covers.eq (covers : left.Covers number) (covers' : right.Covers number)
    (canonical : left.Canonical) (canonical' : right.Canonical) : left = right := by
  have exponent : left.exponent = right.exponent := by
    rcases lt_trichotomy left.exponent right.exponent with lower | same | higher
    · exact absurd covers' (covers.apart canonical canonical' lower)
    · exact same
    · exact absurd covers (covers'.apart canonical' canonical higher)
  have significand : left.significand = right.significand := by
    rcases lt_trichotomy left.significand right.significand with lower | same | higher
    · exact absurd covers' (covers.apart_of_lt exponent lower)
    · exact same
    · exact absurd covers (covers'.apart_of_lt exponent.symm higher)
  have narrow : left.narrow = right.narrow := by
    rw [Bool.eq_iff_iff, canonical.narrow, canonical'.narrow, exponent, significand]
  cases left
  cases right
  simp_all

end

theorem cast_twoTo (exponent : Nat) : (twoTo exponent : ℚ) = 2 ^ exponent :=
  Nat.cast_pow 2 exponent

theorem cast_tenTo (exponent : Nat) : (tenTo exponent : ℚ) = 10 ^ exponent :=
  Nat.cast_pow 10 exponent

theorem pow_toNat (base : ℚ) (nonzero : base ≠ 0) (exponent : Int) :
    base ^ exponent.toNat = base ^ exponent * base ^ (-exponent).toNat := by
  rcases Int.le_total 0 exponent with nonnegative | nonpositive
  · obtain ⟨size, rfl⟩ := Int.eq_ofNat_of_zero_le nonnegative
    simp
  · obtain ⟨size, opposite⟩ := Int.eq_ofNat_of_zero_le (Int.neg_nonneg_of_nonpos nonpositive)
    obtain rfl : exponent = -size := by omega
    simp [nonzero]

theorem scale_between (binaryExponent decimalExponent : Int) :
    ∃ unit : ℚ, 0 < unit ∧
      ((Scale.between binaryExponent decimalExponent).left : ℚ) = 10 ^ decimalExponent * unit ∧
      ((Scale.between binaryExponent decimalExponent).right : ℚ) = 2 ^ binaryExponent * unit := by
  refine ⟨2 ^ (-binaryExponent).toNat * 10 ^ (-decimalExponent).toNat, by positivity, ?_, ?_⟩
  · rw [Scale.between, Nat.cast_mul, cast_tenTo, cast_twoTo, pow_toNat 10 (by norm_num)]
    ring
  · rw [Scale.between, Nat.cast_mul, cast_tenTo, cast_twoTo, pow_toNat 2 (by norm_num)]
    ring

theorem exact_value (binary : Binary) :
    binary.exact.value = binary.significand * 2 ^ binary.exponent := by
  have places : min binary.exponent 0 = -((-binary.exponent).toNat : Int) := by omega
  have tens : (10 : ℚ) ^ (-binary.exponent).toNat =
      2 ^ (-binary.exponent).toNat * 5 ^ (-binary.exponent).toNat := by
    rw [← mul_pow]
    norm_num
  have cast : (binary.exact.digits : ℚ) = binary.significand * 2 ^ binary.exponent *
      10 ^ (-binary.exponent).toNat := by
    rw [Binary.exact, tens, Nat.cast_mul, Nat.cast_mul, cast_twoTo, pow_toNat 2 (by norm_num),
      Nat.pow_eq, Nat.cast_pow]
    push_cast
    ring
  rw [Digits.value, cast, Binary.exact, places, zpow_neg, zpow_natCast,
    mul_inv_cancel_right₀ (by positivity)]

theorem covers_exact (binary : Binary) : binary.Covers binary.exact.value := by
  have value := exact_value binary
  have unit : (0 : ℚ) < 2 ^ binary.exponent := by positivity
  have below : (4 * binary.significand - (if binary.narrow then 1 else 2) : ℚ) *
      2 ^ binary.exponent < 4 * binary.exact.value := by
    rw [value, ← mul_assoc]
    apply mul_lt_mul_of_pos_right _ unit
    split <;> linarith
  have above : 4 * binary.exact.value < (4 * binary.significand + 2 : ℚ) * 2 ^ binary.exponent := by
    rw [value, ← mul_assoc]
    exact mul_lt_mul_of_pos_right (by linarith) unit
  exact ⟨le_of_lt below, le_of_lt above, fun _ => ⟨below, above⟩⟩

theorem strip_value (decimal : Digits) : decimal.strip.value = decimal.value := by
  fun_induction Digits.strip decimal with
  | case1 decimal zero => rfl
  | case2 decimal filled tenfold ih =>
      have whole : ((decimal.digits / 10 : ℕ) : ℚ) * 10 = decimal.digits := by
        exact_mod_cast Nat.div_mul_cancel (Nat.dvd_of_mod_eq_zero tenfold)
      rw [ih, Digits.value, Digits.value, zpow_add_one₀ (by norm_num), mul_comm _ (10 : ℚ),
        ← mul_assoc, whole]
  | case3 decimal filled last => rfl

theorem nearer_cases (tie : Tie) (binary : Binary) (scale : Scale) (below : Nat) :
    binary.nearer tie scale below = below ∨ binary.nearer tie scale below = below + 1 := by
  unfold Binary.nearer
  extract_lets twice middle
  cases tie <;> dsimp only <;> split_ifs <;> simp

section
variable {first second : Nat} {number number' unit : ℚ} (positive : 0 < unit)
  (scaled : (first : ℚ) = number * unit) (scaled' : (second : ℚ) = number' * unit)
include positive scaled scaled'

theorem le_of_scaled (atMost : first ≤ second) : number ≤ number' := by
  have cast : (first : ℚ) ≤ second := Nat.cast_le.mpr atMost
  rw [scaled, scaled'] at cast
  exact le_of_mul_le_mul_right cast positive

theorem lt_of_scaled (less : first < second) : number < number' := by
  have cast : (first : ℚ) < second := Nat.cast_lt.mpr less
  rw [scaled, scaled'] at cast
  exact lt_of_mul_lt_mul_right cast (le_of_lt positive)

end

section
variable {binary : Binary} (positive : 0 < binary.significand)
include positive

theorem covers_of_admits {exponent : Int} {digits : Nat}
    (admitted : binary.admits (Scale.between binary.exponent exponent) digits = true) :
    binary.Covers (Digits.value ⟨digits, exponent⟩) := by
  obtain ⟨unit, unitPositive, left, right⟩ := scale_between binary.exponent exponent
  have width : (((4 * binary.significand - (if binary.narrow then 1 else 2) : ℕ)) : ℚ) =
      4 * binary.significand - (if binary.narrow then 1 else 2) := by
    rw [Nat.cast_sub (by split <;> omega)]
    push_cast
    rfl
  have place : ((4 * digits * (Scale.between binary.exponent exponent).left : ℕ) : ℚ) =
      4 * Digits.value ⟨digits, exponent⟩ * unit := by
    rw [Nat.cast_mul, left, Digits.value]
    push_cast
    ring
  have low : (((4 * binary.significand - (if binary.narrow then 1 else 2)) *
      (Scale.between binary.exponent exponent).right : ℕ) : ℚ) =
      (4 * binary.significand - (if binary.narrow then 1 else 2) : ℚ) * 2 ^ binary.exponent *
        unit := by
    rw [Nat.cast_mul, width, right, mul_assoc]
  have high : (((4 * binary.significand + 2) *
      (Scale.between binary.exponent exponent).right : ℕ) : ℚ) =
      (4 * binary.significand + 2 : ℚ) * 2 ^ binary.exponent * unit := by
    rw [Nat.cast_mul, right]
    push_cast
    ring
  unfold Binary.admits at admitted
  extract_lets placed lowest highest at admitted
  split at admitted
  · simp only [Bool.and_eq_true, decide_eq_true_eq] at admitted
    exact ⟨le_of_scaled unitPositive low place admitted.1,
      le_of_scaled unitPositive place high admitted.2, by omega⟩
  · simp only [Bool.and_eq_true, decide_eq_true_eq] at admitted
    have above := lt_of_scaled unitPositive low place admitted.1
    have below := lt_of_scaled unitPositive place high admitted.2
    exact ⟨le_of_lt above, le_of_lt below, fun _ => ⟨above, below⟩⟩

theorem covers_of_withDigits? {tie : Tie} {count : Nat} {decimal : Digits}
    (found : binary.withDigits? tie count = some decimal) : binary.Covers decimal.value := by
  unfold Binary.withDigits? at found
  extract_lets exponent scale below at found
  split at found
  · rename_i lower upper
    cases found
    rcases nearer_cases tie binary scale below with same | same <;> rw [same]
    · exact covers_of_admits positive lower
    · exact covers_of_admits positive upper
  · cases found
    exact covers_of_admits positive ‹_›
  · cases found
    exact covers_of_admits positive ‹_›
  · contradiction

/-- The shortest decimal of a double is a number that rounds to it. -/
theorem covers_shortest (tie : Tie) : binary.Covers (binary.shortest tie).value := by
  rw [Binary.shortest, strip_value]
  cases found : (List.range' 1 17).findSome? (binary.withDigits? tie) with
  | none => exact covers_exact binary
  | some decimal =>
      obtain ⟨count, _, found⟩ := List.exists_of_findSome?_eq_some found
      exact covers_of_withDigits? positive found

end

end Reckoner.Decimal
