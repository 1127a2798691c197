import Mathlib.Tactic.FieldSimp
import Reckoner.Proofs.Decimal.Interval

/-!
Rounding of significands. A significand that is cut short carries two bits that tell what was cut
off, and these are enough to round it. What comes out covers the number that went in. Products have
all their digits before they are rounded, and quotients have as many as rounding needs.
-/

namespace Reckoner.Decimal

open Float.Model (Format UnpackedFloat totalExponent)
open Float.Model.UnpackedFloat

/-- A significand with two bits stands for a number: it is the whole part of it, the round bit tells
whether a half follows, and the sticky bit whether still more does. -/
structure Holds (extended : ExtendedMantissa) (number : ℚ) : Prop where
  low : (extended.mantissa : ℚ) ≤ number
  high : number < extended.mantissa + 1
  round_iff : extended.roundBit = true ↔ (extended.mantissa + 1 / 2 : ℚ) ≤ number
  sticky_iff : extended.stickyBit = true ↔
    number ≠ extended.mantissa ∧ number ≠ extended.mantissa + 1 / 2

structure IsNearest (whole : Nat) (number : ℚ) : Prop where
  low : (2 * whole - 1 : ℚ) ≤ 2 * number
  high : 2 * number ≤ 2 * whole + 1
  inside : whole % 2 = 1 → (2 * whole - 1 : ℚ) < 2 * number ∧ 2 * number < 2 * whole + 1

section
variable {extended : ExtendedMantissa} {number : ℚ}

theorem Holds.shiftRightOne (held : Holds extended number) :
    Holds extended.shiftRightOne (number / 2) := by
  obtain ⟨mantissa, round, sticky⟩ := extended
  obtain ⟨low, high, round_iff, sticky_iff⟩ := held
  dsimp only at low high round_iff sticky_iff
  have some_iff : (round || sticky) = true ↔ number ≠ mantissa := by
    rw [Bool.or_eq_true, round_iff, sticky_iff]
    grind
  have whole : (mantissa : ℚ) = 2 * (mantissa / 2 : ℕ) + (mantissa % 2 : ℕ) := by
    exact_mod_cast (Nat.div_add_mod mantissa 2).symm
  rcases Nat.mod_two_eq_zero_or_one mantissa with even | odd
  · rw [even] at whole
    constructor
    case low => simp only [ExtendedMantissa.shiftRightOne]; push_cast at whole; linarith
    case high => simp only [ExtendedMantissa.shiftRightOne]; push_cast at whole; linarith
    case round_iff => simp [ExtendedMantissa.shiftRightOne, even]; push_cast at whole; linarith
    case sticky_iff => simp only [ExtendedMantissa.shiftRightOne, some_iff]; grind
  · rw [odd] at whole
    constructor
    case low => simp only [ExtendedMantissa.shiftRightOne]; push_cast at whole; linarith
    case high => simp only [ExtendedMantissa.shiftRightOne]; push_cast at whole; linarith
    case round_iff => simp [ExtendedMantissa.shiftRightOne, odd]; push_cast at whole; linarith
    case sticky_iff => simp only [ExtendedMantissa.shiftRightOne, some_iff]; grind

theorem Holds.shiftRight (held : Holds extended number) (places : Nat) :
    Holds (extended >>> places) (number / 2 ^ places) := by
  induction places with
  | zero => simpa [HShiftRight.hShiftRight, Nat.repeat] using held
  | succ places ih =>
      rw [pow_succ, ← div_div]
      exact ih.shiftRightOne

theorem Holds.isNearest (held : Holds extended number) :
    IsNearest extended.roundedMantissa number := by
  obtain ⟨mantissa, round, sticky⟩ := extended
  obtain ⟨low, high, round_iff, sticky_iff⟩ := held
  dsimp only at low high round_iff sticky_iff
  have exact_of : ¬(number ≠ mantissa ∧ number ≠ mantissa + 1 / 2) →
      number = mantissa ∨ number = mantissa + 1 / 2 := by
    grind
  cases round <;> cases sticky <;>
    simp only [Bool.false_eq_true, false_iff, true_iff, not_le] at round_iff sticky_iff
  case false.false =>
    change IsNearest mantissa number
    have whole : number = mantissa := by
      rcases exact_of sticky_iff with whole | half
      · exact whole
      · linarith
    constructor <;> grind
  case false.true =>
    change IsNearest mantissa number
    constructor <;> grind
  case true.false =>
    change IsNearest (mantissa + mantissa % 2) number
    have half : number = mantissa + 1 / 2 := by
      rcases exact_of sticky_iff with whole | half
      · linarith
      · exact half
    rcases Nat.mod_two_eq_zero_or_one mantissa with even | odd
    · rw [even]
      constructor <;> grind
    · rw [odd]
      constructor <;> push_cast <;> grind
  case true.true =>
    change IsNearest (mantissa + 1) number
    constructor <;> push_cast <;> grind

end

theorem mantissa_ofMantissaAndAccuracy (significand : Nat) (accuracy : Accuracy) :
    (ExtendedMantissa.ofMantissaAndAccuracy significand accuracy).mantissa = significand := by
  unfold ExtendedMantissa.ofMantissaAndAccuracy
  split <;> rfl

theorem targetExponent_eq_max (total : Int) :
    Format.binary64.targetExponent total = max (total - 53) (-1074) :=
  rfl

theorem targetExponent_eq (significand : Nat) (exponent : Int) :
    Format.binary64.targetExponent (totalExponent significand exponent) =
      max (significand.log2 + exponent - 52) (-1074) := by
  rw [targetExponent_eq_max, totalExponent]
  omega

/-- A number before it is rounded: its significand has 53 bits at least or reaches below the last
place of any double, so that rounding has nothing to add to it. -/
structure Measures (significand : Nat) (exponent : Int) (accuracy : Accuracy) (number : ℚ) :
    Prop where
  holds : Holds (.ofMantissaAndAccuracy significand accuracy) (number / 2 ^ exponent)
  enough : 52 ≤ significand.log2 ∨ exponent ≤ -1074

section
variable {significand : Nat} {exponent : Int} {accuracy : Accuracy} {number : ℚ}

theorem Measures.shift (measures : Measures significand exponent accuracy number) :
    ∃ extended target,
      shiftToTargetExponent Format.binary64 significand exponent accuracy = (extended, target) ∧
        Holds extended (number / 2 ^ target) ∧ -1074 ≤ target ∧ number / 2 ^ target < 2 ^ 53 ∧
          (target ≠ -1074 → 2 ^ 52 ≤ number / 2 ^ target) := by
  have enough := measures.enough
  obtain ⟨places, target⟩ : ∃ places : Nat,
      exponent + places = max (significand.log2 + exponent - 52) (-1074) :=
    ⟨(max (significand.log2 + exponent - 52) (-1074) - exponent).toNat, by omega⟩
  have shifted : (max (significand.log2 + exponent - 52) (-1074) - exponent).toNat = places := by
    omega
  have low := measures.holds.low
  have high := measures.holds.high
  have held := measures.holds.shiftRight places
  rw [div_div, ← zpow_natCast, ← zpow_add₀ (by norm_num)] at held
  rw [mantissa_ofMantissaAndAccuracy] at low high
  refine ⟨_, exponent + places, ?_, held, by omega, ?_, ?_⟩
  · simp only [shiftToTargetExponent, targetExponent_eq, shiftToExponent, shifted]
  · have less : (significand + 1 : ℚ) ≤ 2 ^ 53 * 2 ^ places := by
      have bits : significand + 1 ≤ 2 ^ (significand.log2 + 1) := Nat.lt_log2_self
      have more : 2 ^ (significand.log2 + 1) ≤ 2 ^ (53 + places) :=
        Nat.pow_le_pow_right (by decide) (by omega)
      rw [← pow_add]
      exact_mod_cast bits.trans more
    rw [zpow_add₀ (by norm_num), zpow_natCast, ← div_div, div_lt_iff₀ (by positivity)]
    exact high.trans_le less
  · intro above
    have filled : significand ≠ 0 := by
      rintro rfl
      simp at enough target
      omega
    have more : (2 ^ 52 * 2 ^ places : ℚ) ≤ significand := by
      have bits := Nat.log2_self_le filled
      rw [show significand.log2 = 52 + places by omega] at bits
      rw [← pow_add]
      exact_mod_cast bits
    rw [zpow_add₀ (by norm_num), zpow_natCast, ← div_div, le_div_iff₀ (by positivity)]
    exact more.trans low

end

def Binary.ofParts (significand : Nat) (exponent : Int) : Binary :=
  ⟨significand, exponent, decide (significand = 2 ^ 52 ∧ exponent ≠ -1074)⟩

theorem covers_ofParts {whole : Nat} {target : Int} {number : ℚ}
    (low : (4 * whole - (if whole = 2 ^ 52 ∧ target ≠ -1074 then 1 else 2) : ℚ) ≤
      4 * (number / 2 ^ target))
    (high : 4 * (number / 2 ^ target) ≤ (4 * whole + 2 : ℚ))
    (inside : whole % 2 = 1 → (4 * whole - 2 : ℚ) < 4 * (number / 2 ^ target) ∧
      4 * (number / 2 ^ target) < (4 * whole + 2 : ℚ)) :
    (Binary.ofParts whole target).Covers number := by
  have unit : (0 : ℚ) < 2 ^ target := by positivity
  rw [← mul_div_assoc] at low high inside
  rw [le_div_iff₀ unit] at low
  rw [div_le_iff₀ unit] at high
  rw [lt_div_iff₀ unit, div_lt_iff₀ unit] at inside
  constructor
  case low => simpa only [Binary.ofParts, decide_eq_true_eq] using low
  case high => exact high
  case inside =>
    intro (odd : whole % 2 = 1)
    have other : whole ≠ 2 ^ 52 := by
      rintro rfl
      exact absurd odd (by decide)
    simpa only [Binary.ofParts, decide_eq_true_eq, other, false_and, if_false] using inside odd

section
variable {significand : Nat} {exponent : Int} {accuracy : Accuracy} {number : ℚ}

theorem shiftToTargetExponent_zero {whole : Nat} {target : Int} (small : whole < 2 ^ 53)
    (least : -1074 ≤ target) :
    shiftToTargetExponent Format.binary64 whole target .exact =
      (⟨whole, false, false⟩, target) := by
  have bits : whole.log2 ≤ 52 := by
    by_cases zero : whole = 0
    · simp [zero]
    · have less := (Nat.log2_lt zero).mpr small
      omega
  have none : (max (whole.log2 + target - 52) (-1074) - target).toNat = 0 := by
    omega
  simp only [shiftToTargetExponent, targetExponent_eq, shiftToExponent, none]
  simp [HShiftRight.hShiftRight, Nat.repeat, ExtendedMantissa.ofMantissaAndAccuracy]

theorem shiftToTargetExponent_carry {target : Int} (least : -1074 ≤ target) :
    shiftToTargetExponent Format.binary64 (2 ^ 53) target .exact =
      (⟨2 ^ 52, false, false⟩, target + 1) := by
  have one : (max (((53 : Nat) : Int) + target - 52) (-1074) - target).toNat = 1 := by
    omega
  simp only [shiftToTargetExponent, targetExponent_eq, shiftToExponent, Nat.log2_two_pow, one]
  simp [HShiftRight.hShiftRight, Nat.repeat, ExtendedMantissa.ofMantissaAndAccuracy,
    ExtendedMantissa.shiftRightOne]

theorem covers_of_isNearest {whole : Nat} {target : Int}
    (near : IsNearest whole (number / 2 ^ target))
    (large : target ≠ -1074 → 2 ^ 52 ≤ number / 2 ^ target) :
    (Binary.ofParts whole target).Covers number := by
  apply covers_ofParts
  case low =>
    split
    · rename_i narrow
      have more := large narrow.2
      rw [narrow.1]
      push_cast
      linarith
    · linarith [near.low]
  case high => linarith [near.high]
  case inside =>
    intro odd
    obtain ⟨strict, strict'⟩ := near.inside odd
    exact ⟨by linarith, by linarith⟩

theorem Measures.round (measures : Measures significand exponent accuracy number) :
    (roundWithAccuracy Format.binary64 .positive significand exponent accuracy =
        .zero .positive ∧ 2 * number ≤ 2 ^ (-1074 : Int)) ∨
      ∃ whole target positive,
        roundWithAccuracy Format.binary64 .positive significand exponent accuracy =
          .finite .positive whole target positive ∧ whole < 2 ^ 53 ∧ -1074 ≤ target ∧
            (target ≠ -1074 → 2 ^ 52 ≤ whole) ∧ (Binary.ofParts whole target).Covers number := by
  obtain ⟨extended, target, shifted, held, least, small, large⟩ := measures.shift
  have near := held.isNearest
  unfold roundWithAccuracy
  rw [shifted]
  dsimp only
  generalize extended.roundedMantissa = whole at near ⊢
  have most : whole ≤ 2 ^ 53 := by
    have less : (2 * whole : ℚ) < 2 * 2 ^ 53 + 1 := by linarith [near.low]
    have cast : 2 * whole < 2 * 2 ^ 53 + 1 := by exact_mod_cast less
    omega
  have large' : target ≠ -1074 → 2 ^ 52 ≤ whole := by
    intro above
    have more : (2 * 2 ^ 52 : ℚ) ≤ 2 * whole + 1 := by linarith [near.high, large above]
    have cast : 2 * 2 ^ 52 ≤ 2 * whole + 1 := by exact_mod_cast more
    omega
  by_cases carry : whole < 2 ^ 53
  · rw [shiftToTargetExponent_zero carry least]
    dsimp only
    by_cases zero : whole = 0
    · left
      have bottom : target = -1074 := by
        by_contra above
        have := large' above
        omega
      have half := near.high
      rw [zero, bottom, ← mul_div_assoc, div_le_iff₀ (by positivity)] at half
      exact ⟨dif_pos zero, by simpa using half⟩
    · right
      rw [dif_neg zero]
      exact ⟨whole, target, Nat.pos_of_ne_zero zero, rfl, carry, least, large',
        covers_of_isNearest near large⟩
  · right
    obtain rfl : whole = 2 ^ 53 := by omega
    rw [shiftToTargetExponent_carry least]
    dsimp only
    rw [dif_neg (by decide)]
    refine ⟨2 ^ 52, target + 1, by positivity, rfl, by decide, by omega, fun _ => le_refl _, ?_⟩
    have near' := near.low
    have half' : number / 2 ^ (target + 1) = number / 2 ^ target / 2 := by
      rw [zpow_add_one₀ (by norm_num), ← div_div]
    push_cast at near'
    apply covers_ofParts
    case low =>
      have above : target + 1 ≠ -1074 := by omega
      rw [if_pos ⟨rfl, above⟩, half']
      push_cast
      linarith
    case high =>
      rw [half']
      push_cast
      linarith
    case inside => exact fun odd => absurd odd (by decide)

end

theorem holds_exact (significand : Nat) :
    Holds (.ofMantissaAndAccuracy significand .exact) (significand : ℚ) := by
  constructor <;> simp [ExtendedMantissa.ofMantissaAndAccuracy]

theorem measures_exact {significand : Nat} (large : 52 ≤ significand.log2) (exponent : Int) :
    Measures significand exponent .exact (significand * 2 ^ exponent) := by
  constructor
  case holds =>
    rw [mul_div_cancel_right₀ _ (by positivity)]
    exact holds_exact significand
  case enough => exact Or.inl large

theorem holds_quotient (numerator : Nat) {denominator : Nat} (positive : 0 < denominator) :
    Holds (.ofMantissaAndAccuracy (numerator / denominator)
      (accuracyOfFraction (numerator % denominator) denominator))
        (numerator / denominator : ℚ) := by
  have unit : (0 : ℚ) < denominator := by exact_mod_cast positive
  have whole : (numerator : ℚ) =
      denominator * (numerator / denominator : ℕ) + (numerator % denominator : ℕ) := by
    exact_mod_cast (Nat.div_add_mod numerator denominator).symm
  have below := Nat.mod_lt numerator positive
  generalize numerator / denominator = quotient at *
  generalize numerator % denominator = rest at *
  obtain ⟨part, scaled⟩ : ∃ part : ℚ, part = rest / denominator := ⟨_, rfl⟩
  have small : part < 1 := by
    rw [scaled, div_lt_one unit]
    exact_mod_cast below
  rw [whole, add_div, mul_div_cancel_left₀ _ (ne_of_gt unit), ← scaled]
  unfold accuracyOfFraction
  split
  · rename_i none
    have zero : part = 0 := by simp [scaled, none]
    rw [zero, add_zero]
    exact holds_exact quotient
  · rename_i some
    have positive' : 0 < part := by
      rw [scaled]
      have cast : (0 : ℚ) < rest := by exact_mod_cast Nat.pos_of_ne_zero some
      positivity
    rcases lt_trichotomy (2 * rest) denominator with less | same | more
    · have half : part < 1 / 2 := by
        rw [scaled, div_lt_div_iff₀ unit (by norm_num)]
        exact_mod_cast (by omega : rest * 2 < 1 * denominator)
      rw [Nat.compare_eq_lt.mpr less]
      constructor <;> simp [ExtendedMantissa.ofMantissaAndAccuracy] <;> grind
    · have half : part = 1 / 2 := by
        rw [scaled, div_eq_div_iff (ne_of_gt unit) (by norm_num)]
        exact_mod_cast (by omega : rest * 2 = 1 * denominator)
      rw [Nat.compare_eq_eq.mpr same]
      constructor <;> simp [ExtendedMantissa.ofMantissaAndAccuracy] <;> grind
    · have half : 1 / 2 < part := by
        rw [scaled, div_lt_div_iff₀ (by norm_num) unit]
        exact_mod_cast (by omega : 1 * denominator < rest * 2)
      rw [Nat.compare_eq_gt.mpr more]
      constructor <;> simp [ExtendedMantissa.ofMantissaAndAccuracy] <;> grind

theorem measures_divCore {significand significand' : Nat} (positive : 0 < significand)
    (positive' : 0 < significand') (exponent exponent' : Int) :
    Measures (divCore Format.binary64 significand exponent significand' exponent').1
      (divCore Format.binary64 significand exponent significand' exponent').2.1
      (divCore Format.binary64 significand exponent significand' exponent').2.2
      (significand * 2 ^ exponent / (significand' * 2 ^ exponent')) := by
  obtain ⟨target, lowered⟩ : ∃ target, target = min (exponent - exponent')
      (Format.binary64.targetExponent
        (totalExponent significand exponent - totalExponent significand' exponent')) := ⟨_, rfl⟩
  have least : target = min (exponent - exponent')
      (max (significand.log2 + exponent - (significand'.log2 + exponent') - 53) (-1074)) := by
    rw [lowered, targetExponent_eq_max, totalExponent, totalExponent]
    omega
  obtain ⟨places, shift⟩ : ∃ places : Nat, exponent - exponent' = target + places :=
    ⟨(exponent - exponent' - target).toNat, by omega⟩
  have places_eq : (exponent - exponent' - target).toNat = places := by omega
  have core : divCore Format.binary64 significand exponent significand' exponent' =
      (significand * 2 ^ places / significand', target,
        accuracyOfFraction (significand * 2 ^ places % significand') significand') := by
    simp only [divCore, ← lowered, places_eq, Nat.shiftLeft_eq]
  rw [core]
  constructor
  case holds =>
    have scaled : (significand * 2 ^ exponent / (significand' * 2 ^ exponent') / 2 ^ target : ℚ) =
        ((significand * 2 ^ places : ℕ) : ℚ) / significand' := by
      have unit : (significand' : ℚ) ≠ 0 := by positivity
      rw [show exponent = target + places + exponent' by omega, zpow_add₀ (by norm_num),
        zpow_add₀ (by norm_num), zpow_natCast]
      push_cast
      field_simp
    rw [scaled]
    exact holds_quotient _ positive'
  case enough =>
    dsimp only
    by_cases low : target ≤ -1074
    · exact Or.inr low
    · left
      have room : significand'.log2 + 53 ≤ significand.log2 + places := by omega
      have more : 2 ^ 52 ≤ significand * 2 ^ places / significand' := by
        rw [Nat.le_div_iff_mul_le positive']
        have size' : significand' < 2 ^ (significand'.log2 + 1) := Nat.lt_log2_self
        have size := Nat.log2_self_le (Nat.ne_of_gt positive)
        calc 2 ^ 52 * significand' ≤ 2 ^ 52 * 2 ^ (significand'.log2 + 1) :=
              Nat.mul_le_mul_left _ (le_of_lt size')
          _ = 2 ^ (significand'.log2 + 53) := by rw [← Nat.pow_add]; congr 1; omega
          _ ≤ 2 ^ (significand.log2 + places) := Nat.pow_le_pow_right (by decide) room
          _ = 2 ^ significand.log2 * 2 ^ places := Nat.pow_add _ _ _
          _ ≤ significand * 2 ^ places := Nat.mul_le_mul_right _ size
      rw [Nat.le_log2 (by omega)]
      exact more

end Reckoner.Decimal
