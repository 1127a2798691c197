import Reckoner.Decimal.Reading
import Reckoner.Proofs.Decimal.Packing

/-!
Operations that round once. A double that comes from rounding a number is the double whose interval
has the number in it. Products and quotients of doubles are rounded once, and so are whole numbers.
So are decimals, whether the digits and the power of ten are few enough to be doubles themselves, or
the decimal is taken as one product or one quotient of whole numbers.
-/

namespace Reckoner.Decimal

open Float.Model (Format UnpackedFloat totalExponent)
open Float.Model.UnpackedFloat

theorem Binary.Covers.gt {binary : Binary} {number : ℚ} (covers : binary.Covers number)
    (canonical : binary.Canonical) : 2 ^ (-1074 : Int) < 2 * number := by
  have unit : (0 : ℚ) < 2 ^ binary.exponent := by positivity
  have least : (2 : ℚ) ^ (-1074 : Int) ≤ 2 ^ binary.exponent :=
    zpow_le_zpow_right₀ (by norm_num) canonical.least
  have low := covers.low
  have inside := covers.inside
  have half : (if binary.narrow then 1 else 2 : ℚ) ≤ 2 := by split <;> norm_num
  generalize (if binary.narrow then 1 else 2 : ℚ) = width at *
  rcases Nat.lt_or_ge 1 binary.significand with more | one
  · have cast : (2 : ℚ) ≤ binary.significand := by exact_mod_cast more
    have six :
        6 * 2 ^ binary.exponent ≤ (4 * binary.significand - width : ℚ) * 2 ^ binary.exponent :=
      mul_le_mul_of_nonneg_right (by linarith) (le_of_lt unit)
    linarith
  · have single : binary.significand = 1 := Nat.le_antisymm one canonical.positive
    have strict := (inside (by rw [single])).1
    rw [single] at strict
    have two : 2 * 2 ^ binary.exponent ≤ (4 * (1 : ℕ) - width : ℚ) * 2 ^ binary.exponent :=
      mul_le_mul_of_nonneg_right (by push_cast; linarith) (le_of_lt unit)
    linarith

theorem Binary.Covers.ge {whole : Nat} {target : Int} {number : ℚ}
    (covers : (Binary.ofParts whole target).Covers number) (large : 2 ^ 52 ≤ whole)
    (high : 971 < target) : (2 ^ 54 - 1 : ℚ) * (2 * 2 ^ (971 : Int)) ≤ 4 * number := by
  have more : 2 * 2 ^ (971 : Int) ≤ (2 : ℚ) ^ target := by
    rw [← zpow_one_add₀ (by norm_num)]
    exact zpow_le_zpow_right₀ (by norm_num) high
  have low := covers.low
  have width : (2 ^ 54 - 1 : ℚ) ≤
      4 * whole - (if (Binary.ofParts whole target).narrow then 1 else 2) := by
    rcases Nat.eq_or_lt_of_le large with rfl | above
    · have narrow : (Binary.ofParts (2 ^ 52) target).narrow = true :=
        decide_eq_true ⟨rfl, by omega⟩
      rw [narrow]
      norm_num
    · have cast : (2 ^ 52 + 1 : ℚ) ≤ whole := by exact_mod_cast above
      have half : (if (Binary.ofParts whole target).narrow then 1 else 2 : ℚ) ≤ 2 := by
        split <;> norm_num
      linarith
  exact (mul_le_mul width more (by positivity) (le_trans (by norm_num) width)).trans low

theorem Binary.Covers.not_high {binary : Binary} {number : ℚ} (covers : binary.Covers number)
    (canonical : binary.Canonical) {whole : Nat} {target : Int} (large : 2 ^ 52 ≤ whole)
    (high : 971 < target) : ¬(Binary.ofParts whole target).Covers number := by
  intro covers'
  have below := covers.lt canonical
  have least := covers'.ge large high
  have most : (2 : ℚ) ^ binary.exponent ≤ 2 ^ (971 : Int) :=
    zpow_le_zpow_right₀ (by norm_num) canonical.most
  have unit : (0 : ℚ) < 2 ^ (971 : Int) := by positivity
  have top : (2 ^ 55 - 2 : ℚ) * 2 ^ binary.exponent ≤ (2 ^ 55 - 2) * 2 ^ (971 : Int) :=
    mul_le_mul_of_nonneg_left most (by norm_num)
  linarith

/-- A double that comes from rounding a number. -/
def Rounded (value : Float) (number : ℚ) : Prop :=
  ∃ significand exponent accuracy,
    value = .ofModel (.pack (roundWithAccuracy Format.binary64 .positive significand exponent
      accuracy)) ∧ Measures significand exponent accuracy number

section
variable {value : Float} {number : ℚ}

theorem Rounded.isNegative (rounded : Rounded value number) : isNegative value = false := by
  obtain ⟨significand, exponent, accuracy, rfl, measures⟩ := rounded
  apply isNegative_pack
  rcases measures.round with ⟨zero, -⟩ | ⟨whole, target, positive, finite, -⟩
  · exact Or.inl zero
  · exact Or.inr ⟨whole, target, positive, finite⟩

theorem Rounded.sizeOf_eq (rounded : Rounded value number) {binary : Binary}
    (canonical : binary.Canonical) (covers : binary.Covers number) :
    sizeOf value = .finite binary := by
  obtain ⟨significand, exponent, accuracy, rfl, measures⟩ := rounded
  rcases measures.round with ⟨-, tiny⟩ |
    ⟨whole, target, positive, finite, small, least, large, covers'⟩
  · exact absurd (covers.gt canonical) (not_lt_of_ge tiny)
  · by_cases most : target ≤ 971
    · have canonical' : (Binary.ofParts whole target).Canonical :=
        ⟨positive, small, least, most, large, decide_eq_true_iff⟩
      rw [finite, sizeOf_pack positive small least large most,
        covers.eq covers' canonical canonical']
    · have more : 2 ^ 52 ≤ whole := large (by omega)
      exact absurd covers' (covers.not_high canonical more (by omega))

end

theorem log2_mul_le {significand significand' : Nat} (size : significand.log2 = 52)
    (size' : significand'.log2 = 52) : 104 ≤ (significand * significand').log2 := by
  have least := (bounds_of_log2 size).1
  have least' := (bounds_of_log2 size').1
  rw [Nat.le_log2 (Nat.mul_ne_zero (by omega) (by omega))]
  exact le_trans (by norm_num) (Nat.mul_le_mul least least')

section
variable {first second : Float} {significand significand' : Nat} {exponent exponent' : Int}
  {positive : 0 < significand} {positive' : 0 < significand'}
  (unpacked : first.toModel.unpack = .finite .positive significand exponent positive)
  (unpacked' : second.toModel.unpack = .finite .positive significand' exponent' positive')
include unpacked unpacked'

theorem rounded_mul (size : significand.log2 = 52) (size' : significand'.log2 = 52) :
    Rounded (first * second) (significand * 2 ^ exponent * (significand' * 2 ^ exponent')) := by
  have rounds : first * second = .ofModel (.pack (roundWithAccuracy Format.binary64 .positive
      (significand * significand') (exponent + exponent') .exact)) := by
    change Float.ofModel
      (.pack (mul Format.binary64 first.toModel.unpack second.toModel.unpack)) = _
    rw [unpacked, unpacked']
    rfl
  refine ⟨_, _, _, rounds, ?_⟩
  have large := log2_mul_le size size'
  have measures := measures_exact (le_trans (by decide) large) (exponent + exponent')
  have value : ((significand * significand' : ℕ) : ℚ) * 2 ^ (exponent + exponent') =
      significand * 2 ^ exponent * (significand' * 2 ^ exponent') := by
    rw [zpow_add₀ (by norm_num), Nat.cast_mul]
    ring
  rwa [value] at measures

theorem rounded_div :
    Rounded (first / second) (significand * 2 ^ exponent / (significand' * 2 ^ exponent')) := by
  refine ⟨_, _, _, ?_, measures_divCore positive positive' exponent exponent'⟩
  change Float.ofModel (.pack (div Format.binary64 first.toModel.unpack second.toModel.unpack)) = _
  rw [unpacked, unpacked']
  rfl

end

theorem le_log2_fill {word : Nat} (positive : 0 < word) :
    52 ≤ (word * 2 ^ (52 - word.log2)).log2 := by
  rw [Nat.le_log2 (Nat.ne_of_gt (Nat.mul_pos positive (Nat.two_pow_pos _)))]
  calc 2 ^ 52 ≤ 2 ^ (word.log2 + (52 - word.log2)) := Nat.pow_le_pow_right (by decide) (by omega)
    _ = 2 ^ word.log2 * 2 ^ (52 - word.log2) := Nat.pow_add _ _ _
    _ ≤ word * 2 ^ (52 - word.log2) :=
        Nat.mul_le_mul_right _ (Nat.log2_self_le (Nat.ne_of_gt positive))

theorem fill_value (word lacking : Nat) :
    ((word * 2 ^ lacking : ℕ) : ℚ) * 2 ^ (-lacking : Int) = word := by
  rw [zpow_neg, zpow_natCast, Nat.cast_mul, Nat.cast_pow, Nat.cast_ofNat]
  exact mul_inv_cancel_right₀ (by positivity) _

theorem ofWord_eq_round {word : Nat} (positive : 0 < word) (fits : word < 2 ^ 64) :
    ofWord word = .ofModel (.pack (roundWithAccuracy Format.binary64 .positive
      (word * 2 ^ (52 - word.log2)) (-(52 - word.log2 : ℕ)) .exact)) := by
  have whole : word.toUInt64.toNat = word := by
    rw [Nat.toUInt64_eq, UInt64.toNat_ofNat']
    exact Nat.mod_eq_of_lt fits
  have shift : (-Format.binary64.targetExponent (totalExponent word 0)).toNat =
      52 - word.log2 := by
    rw [targetExponent_eq]
    omega
  change Float.ofModel (.pack (normalize Format.binary64 word.toUInt64.toNat 0 .positive)) = _
  rw [whole, UnpackedFloat.normalize, Int.compare_eq_gt.mpr (by omega)]
  simp only [UnpackedFloat.round, decreaseExponent, Int.toNat_natCast, Nat.shiftLeft_eq,
    Int.zero_sub, shift]

theorem rounded_ofWord {word : Nat} (positive : 0 < word) (fits : word < 2 ^ 64) :
    Rounded (ofWord word) word := by
  refine ⟨_, _, _, ofWord_eq_round positive fits, ?_⟩
  rw [← fill_value word (52 - word.log2)]
  exact measures_exact (le_log2_fill positive) _

theorem powerOfTen_eq : ∀ exponent : Fin 23,
    Float.exactlyRepresentablePowersOfTen[exponent.val] = .ofModel (.pack
      (roundWithAccuracy Format.binary64 .positive (2 ^ 53 * 10 ^ exponent.val) (-53) .exact)) := by
  decide +kernel

theorem rounded_powerOfTen {exponent : Nat} (small : exponent < 23) :
    Rounded (Float.exactlyRepresentablePowersOfTen[exponent]) (10 ^ exponent) := by
  refine ⟨_, _, _, powerOfTen_eq ⟨exponent, small⟩, ?_⟩
  have large : 52 ≤ (2 ^ 53 * 10 ^ exponent).log2 := by
    have power : 2 ^ 53 ≤ 2 ^ 53 * 10 ^ exponent :=
      Nat.le_mul_of_pos_right _ (Nat.pow_pos (by decide))
    rw [Nat.le_log2 (by omega)]
    omega
  have value : ((2 ^ 53 * 10 ^ exponent : ℕ) : ℚ) * 2 ^ (-53 : Int) = 10 ^ exponent := by
    push_cast
    rw [zpow_neg, mul_right_comm]
    norm_num
  rw [← value]
  exact measures_exact large (-53)

theorem Rounded.unpack_eq {value : Float} {significand : Nat} {exponent : Int}
    (rounded : Rounded value (significand * 2 ^ exponent)) (size : significand.log2 = 52)
    (low : -1074 ≤ exponent) (high : exponent ≤ 971) :
    ∃ positive, value.toModel.unpack = .finite .positive significand exponent positive := by
  obtain ⟨more, less⟩ := bounds_of_log2 size
  have positive : 0 < significand := by omega
  have canonical : (Binary.ofParts significand exponent).Canonical :=
    ⟨positive, less, low, high, fun _ => more, decide_eq_true_iff⟩
  have covers : (Binary.ofParts significand exponent).Covers (significand * 2 ^ exponent) := by
    have exact := covers_exact (Binary.ofParts significand exponent)
    rwa [exact_value] at exact
  have packed := sizeOf_pack positive less low (fun _ => more) high
  have same : value = .ofModel (.pack (.finite .positive significand exponent positive)) := by
    apply eq_of_sign_of_bits
    · rw [rounded.isNegative, isNegative_pack (Or.inr ⟨_, _, _, rfl⟩)]
    · exact bits_eq_of_sizeOfBits (rounded.sizeOf_eq canonical covers) packed
  rw [same]
  exact ⟨positive, unpack_pack positive less low (fun _ => more) high⟩

theorem Rounded.exists_unpack {value : Float} {word shift : Nat}
    (rounded : Rounded value (word * 2 ^ shift)) (positive : 0 < word) (small : word < 2 ^ 53)
    (near : shift ≤ 900) :
    ∃ significand exponent positive,
      value.toModel.unpack = .finite .positive significand exponent positive ∧
        significand.log2 = 52 ∧ -1074 ≤ exponent ∧ exponent ≤ 971 ∧
          (significand * 2 ^ exponent : ℚ) = word * 2 ^ shift := by
  have bits : word.log2 < 53 := (Nat.log2_lt (Nat.ne_of_gt positive)).mpr small
  have size : (word * 2 ^ (52 - word.log2)).log2 = 52 := by
    have least := le_log2_fill positive
    have most : (word * 2 ^ (52 - word.log2)).log2 < 53 := by
      rw [Nat.log2_lt (Nat.ne_of_gt (Nat.mul_pos positive (Nat.two_pow_pos _)))]
      calc word * 2 ^ (52 - word.log2) < 2 ^ (word.log2 + 1) * 2 ^ (52 - word.log2) :=
            Nat.mul_lt_mul_of_pos_right Nat.lt_log2_self (Nat.two_pow_pos _)
        _ = 2 ^ 53 := by rw [← Nat.pow_add]; congr 1; omega
    omega
  have value' : ((word * 2 ^ (52 - word.log2) : ℕ) : ℚ) *
      2 ^ ((shift : Int) - (52 - word.log2 : ℕ)) = word * 2 ^ shift := by
    rw [sub_eq_add_neg, add_comm, zpow_add₀ (by norm_num), ← mul_assoc, fill_value, zpow_natCast]
  rw [← value'] at rounded
  have low : -1074 ≤ (shift : Int) - (52 - word.log2 : ℕ) := by omega
  have high : (shift : Int) - (52 - word.log2 : ℕ) ≤ 971 := by omega
  obtain ⟨_, unpacked⟩ := rounded.unpack_eq size low high
  exact ⟨_, _, _, unpacked, size, low, high, value'⟩

theorem tens_eq (exponent : Nat) : (10 : ℚ) ^ exponent = (5 ^ exponent : ℕ) * 2 ^ exponent := by
  rw [Nat.cast_pow, ← mul_pow]
  norm_num

theorem fives_lt {exponent : Nat} (short : exponent < 23) : 5 ^ exponent < 2 ^ 53 :=
  Nat.lt_of_le_of_lt (Nat.pow_le_pow_right (by decide) (by omega : exponent ≤ 22)) (by decide)

theorem rounded_short {digits exponent : Nat} (positive : 0 < digits) (small : digits < 2 ^ 53)
    (short : exponent < 23) :
    Rounded (ofWord digits * Float.exactlyRepresentablePowersOfTen[exponent])
        (digits * 10 ^ exponent) ∧
      Rounded (ofWord digits / Float.exactlyRepresentablePowersOfTen[exponent])
        (digits / 10 ^ exponent) := by
  have word : Rounded (ofWord digits) (digits * 2 ^ 0) := by
    rw [pow_zero, mul_one]
    exact rounded_ofWord positive (by omega)
  have power := rounded_powerOfTen short
  rw [tens_eq] at power ⊢
  obtain ⟨_, _, _, unpacked, size, -, -, value⟩ := word.exists_unpack positive small (by decide)
  obtain ⟨_, _, _, unpacked', size', -, -, value'⟩ :=
    power.exists_unpack (Nat.pow_pos (by decide)) (fives_lt short) (by omega)
  rw [pow_zero, mul_one] at value
  have product := rounded_mul unpacked unpacked' size size'
  have quotient := rounded_div unpacked unpacked'
  rw [value, value'] at product quotient
  exact ⟨product, quotient⟩

theorem rounded_long {digits : Nat} (positive : 0 < digits) {exponent : Int}
    (high : exponent ≤ 2048) (low : -(2048 + digits.log2 : Int) ≤ exponent) :
    Rounded (.ofModel (Float.Model.ofScientific digits exponent)) (digits * 10 ^ exponent) := by
  have notLarge : ¬(exponent > 2 ^ Format.binary64.exponentBits) := by
    change ¬(exponent > 2048)
    omega
  have notSmall : ¬(exponent < -((2 ^ Format.binary64.exponentBits : Int) + digits.log2)) := by
    change ¬(exponent < -(2048 + digits.log2))
    omega
  have guarded : Float.Model.ofScientific digits exponent = .pack
      (UnpackedFloat.ofScientific Format.binary64 digits exponent) := rfl
  rw [guarded]
  unfold UnpackedFloat.ofScientific
  rw [dif_neg (Nat.ne_of_gt positive), if_neg notLarge, if_neg notSmall]
  by_cases nonnegative : 0 ≤ exponent
  · rw [if_pos nonnegative]
    obtain ⟨power, rfl⟩ := Int.eq_ofNat_of_zero_le nonnegative
    have grown : digits <<< Format.binary64.mantissaBits = digits * 2 ^ 53 := Nat.shiftLeft_eq _ _
    have large :
        52 ≤ (digits <<< Format.binary64.mantissaBits * 10 ^ (power : Int).toNat).log2 := by
      have more : 2 ^ 53 ≤ digits * 2 ^ 53 * 10 ^ power :=
        le_trans (Nat.le_mul_of_pos_left _ positive)
          (Nat.le_mul_of_pos_right _ (Nat.pow_pos (by decide)))
      rw [grown, Int.toNat_natCast, Nat.le_log2 (by omega)]
      omega
    have measures := measures_exact large (-53)
    have value : ((digits <<< Format.binary64.mantissaBits * 10 ^ (power : Int).toNat : ℕ) : ℚ) *
        2 ^ (-53 : Int) = digits * 10 ^ (power : Int) := by
      rw [grown, Int.toNat_natCast, zpow_natCast, zpow_neg]
      push_cast
      field_simp
    rw [value] at measures
    exact ⟨_, _, _, rfl, measures⟩
  · rw [if_neg nonnegative]
    obtain ⟨power, opposite⟩ := Int.eq_ofNat_of_zero_le (by omega : 0 ≤ -exponent)
    obtain rfl : exponent = -power := by omega
    have measures := measures_divCore positive
      (Nat.pow_pos (by decide) : 0 < 10 ^ (- -(power : Int)).toNat) 0 0
    have value :
        (digits * 2 ^ (0 : Int) / ((10 ^ (- -(power : Int)).toNat : ℕ) * 2 ^ (0 : Int)) : ℚ) =
          digits * 10 ^ (-power : Int) := by
      rw [neg_neg, Int.toNat_natCast, zpow_neg, zpow_natCast]
      push_cast
      field_simp
    rw [value] at measures
    exact ⟨_, _, _, rfl, measures⟩

theorem rounded_ofScientific {digits : Nat} (positive : 0 < digits) (below : Bool) (places : Nat)
    {exponent : Int} (same : exponent = if below then -(places : Int) else places)
    (high : exponent ≤ 2048) (low : -(2048 + digits.log2 : Int) ≤ exponent) :
    Rounded (Float.ofScientific digits below places) (digits * 10 ^ exponent) := by
  unfold Float.ofScientific
  split
  · rename_i short
    obtain ⟨product, quotient⟩ := rounded_short positive short.1 (by omega : places < 23)
    cases below with
    | false =>
        simp only [Bool.false_eq_true, if_false] at same
        rw [same, zpow_natCast]
        exact product
    | true =>
        simp only [if_true] at same
        rw [same, zpow_neg, zpow_natCast, ← div_eq_mul_inv]
        exact quotient
  · have written : (if below = true then Int.negOfNat places else Int.ofNat places) = exponent := by
      rw [same]
      cases below
      · rfl
      · simp [Int.negOfNat_eq]
    rw [written]
    exact rounded_long positive high low

end Reckoner.Decimal
