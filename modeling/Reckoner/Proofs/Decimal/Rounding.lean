import Reckoner.Proofs.Decimal.Operations

/-!
How far rounding goes. A double that comes from rounding exceeds the exact number by no more than
one part in `2 ^ 53`, and so it is finite if the number is not too near to the largest double.
-/

namespace Reckoner.Decimal

def Within (value : Float) (bound : ℚ) : Prop :=
  ∃ significand exponent positive,
    value.toModel.unpack = .finite .positive significand exponent positive ∧
      significand.log2 = 52 ∧ -52 ≤ exponent ∧ (significand : ℚ) * 2 ^ exponent ≤ bound

theorem Within.isInf {value : Float} {bound : ℚ} (within : Within value bound) :
    value.isInf = false := by
  obtain ⟨significand, exponent, positive, unpacked, -⟩ := within
  rw [Float.isInf, Float.Model.isInf, unpacked]
  rfl

theorem covers_ofParts_le {whole : Nat} {target : Int} {number : ℚ}
    (covers : (Binary.ofParts whole target).Covers number) (large : 2 ^ 52 ≤ whole)
    (above : target ≠ -1074) :
    (whole : ℚ) * 2 ^ target ≤ number * (1 + 1 / 2 ^ 53) := by
  have unit : (0 : ℚ) < 2 ^ target := by positivity
  have low := covers.low
  simp only [Binary.ofParts, decide_eq_true_eq, above, ne_eq, not_false_eq_true, and_true] at low
  rcases Nat.eq_or_lt_of_le large with rfl | more
  · rw [if_pos rfl] at low
    push_cast at low ⊢
    linarith
  · rw [if_neg (Nat.ne_of_gt more)] at low
    have cast : (2 ^ 52 + 1 : ℚ) ≤ whole := by exact_mod_cast more
    have scaled : (2 ^ 52 + 1) * (2 : ℚ) ^ target ≤ whole * 2 ^ target :=
      mul_le_mul_of_nonneg_right cast (le_of_lt unit)
    linarith

theorem Rounded.parts {value : Float} {number : ℚ} (rounded : Rounded value number) {least : Int}
    (normal : -1022 < least) (low : 2 ^ least ≤ number) :
    ∃ whole target positive,
      value = .ofModel (.pack (.finite .positive whole target positive)) ∧ whole.log2 = 52 ∧
        least - 52 ≤ target ∧ (Binary.ofParts whole target).Covers number := by
  obtain ⟨significand, exponent, accuracy, rfl, measures⟩ := rounded
  rcases measures.round with ⟨-, tiny⟩ |
    ⟨whole, target, positive, finite, small, -, large, covers⟩
  · have less : (2 : ℚ) ^ (-1074 : Int) ≤ 2 ^ least :=
      zpow_le_zpow_right₀ (by norm_num) (by omega)
    have unit : (0 : ℚ) < 2 ^ least := by positivity
    linarith
  · have above : least - 52 ≤ target := by
      by_contra below
      have unit : (2 : ℚ) ^ target ≤ 2 ^ (least - 53) :=
        zpow_le_zpow_right₀ (by norm_num) (by omega)
      have shift : (2 : ℚ) ^ least = 2 ^ 53 * 2 ^ (least - 53) := by
        rw [← zpow_natCast, ← zpow_add₀ (by norm_num)]
        congr 1
        norm_num
      have positive' : (0 : ℚ) < 2 ^ (least - 53) := by positivity
      have cast : (whole : ℚ) + 1 ≤ 2 ^ 53 := by exact_mod_cast small
      have top : 4 * number ≤ (4 * whole + 2) * 2 ^ target := covers.high
      have most : (4 * whole + 2 : ℚ) * 2 ^ target ≤ (4 * 2 ^ 53 - 2) * 2 ^ (least - 53) :=
        mul_le_mul (by linarith) unit (by positivity) (by norm_num)
      rw [shift] at low
      linarith
    have size : whole.log2 = 52 :=
      (Nat.log2_eq_iff (Nat.ne_of_gt positive)).mpr ⟨large (by omega), small⟩
    exact ⟨whole, target, positive, by rw [finite], size, above, covers⟩

theorem Rounded.within {value : Float} {number : ℚ} (rounded : Rounded value number)
    (low : 1 ≤ number) (high : number * (1 + 1 / 2 ^ 53) < 2 ^ 1024) :
    Within value (number * (1 + 1 / 2 ^ 53)) := by
  have low' : (2 : ℚ) ^ (0 : Int) ≤ number := by rwa [zpow_zero]
  obtain ⟨whole, target, positive, rfl, size, least, covers⟩ := rounded.parts (by norm_num) low'
  obtain ⟨more, less⟩ := bounds_of_log2 size
  have bound := covers_ofParts_le covers more (by omega)
  have most : target ≤ 971 := by
    have cast : (2 : ℚ) ^ 52 ≤ whole := by exact_mod_cast more
    have power : (2 : ℚ) ^ (52 + target) < 2 ^ (1024 : Int) := by
      calc (2 : ℚ) ^ (52 + target) = 2 ^ 52 * 2 ^ target := by
            rw [zpow_add₀ (by norm_num)]
            rfl
        _ ≤ whole * 2 ^ target := by gcongr
        _ ≤ _ := bound
        _ < _ := high
    have lower := (zpow_lt_zpow_iff_right₀ (by norm_num)).mp power
    omega
  exact ⟨whole, target, positive, unpack_pack positive less (by omega) (fun _ => more) most, size,
    by omega, bound⟩

theorem Within.mono {value : Float} {bound bound' : ℚ} (within : Within value bound)
    (order : bound ≤ bound') : Within value bound' := by
  obtain ⟨significand, exponent, positive, unpacked, size, low, high⟩ := within
  exact ⟨significand, exponent, positive, unpacked, size, low, le_trans high order⟩

theorem one_le_of_parts {significand : Nat} {exponent : Int} (size : significand.log2 = 52)
    (low : -52 ≤ exponent) : (1 : ℚ) ≤ significand * 2 ^ exponent := by
  have least : (2 : ℚ) ^ 52 ≤ significand := by
    exact_mod_cast (bounds_of_log2 size).1
  calc (1 : ℚ) = 2 ^ 52 * 2 ^ (-52 : Int) := by norm_num
    _ ≤ significand * 2 ^ exponent :=
        mul_le_mul least (zpow_le_zpow_right₀ (by norm_num) low) (by positivity) (by positivity)

theorem within_mul {first second : Float} {bound bound' : ℚ} (within : Within first bound)
    (within' : Within second bound') (high : bound * bound' * (1 + 1 / 2 ^ 53) < 2 ^ 1024) :
    Within (first * second) (bound * bound' * (1 + 1 / 2 ^ 53)) := by
  obtain ⟨significand, exponent, positive, unpacked, size, low, most⟩ := within
  obtain ⟨significand', exponent', positive', unpacked', size', low', most'⟩ := within'
  have rounded := rounded_mul unpacked unpacked' size size'
  have one : (1 : ℚ) ≤ significand * 2 ^ exponent * (significand' * 2 ^ exponent') :=
    one_le_mul_of_one_le_of_one_le (one_le_of_parts size low) (one_le_of_parts size' low')
  have value : (significand * 2 ^ exponent * (significand' * 2 ^ exponent') : ℚ) ≤
      bound * bound' :=
    mul_le_mul most most' (by positivity) (le_trans (by positivity) most)
  have scaled : (significand * 2 ^ exponent * (significand' * 2 ^ exponent') : ℚ) *
      (1 + 1 / 2 ^ 53) ≤ bound * bound' * (1 + 1 / 2 ^ 53) :=
    mul_le_mul_of_nonneg_right value (by positivity)
  exact (rounded.within one (lt_of_le_of_lt scaled high)).mono scaled

theorem within_ofWord {word : Nat} (positive : 0 < word) (fits : word < 2 ^ 64) :
    Within (ofWord word) (word * (1 + 1 / 2 ^ 53)) := by
  apply (rounded_ofWord positive fits).within (by exact_mod_cast positive)
  have most : (word : ℚ) ≤ 2 ^ 64 := by exact_mod_cast le_of_lt fits
  calc (word : ℚ) * (1 + 1 / 2 ^ 53) ≤ 2 ^ 64 * (1 + 1 / 2 ^ 53) := by gcongr
    _ < 2 ^ 65 := by norm_num
    _ ≤ 2 ^ 1024 := pow_le_pow_right₀ (by norm_num) (by decide)

theorem rounded_tenTo {exponent : Nat} (small : exponent ≤ 308) :
    Rounded (Float.ofScientific 1 false exponent) (10 ^ exponent) := by
  have scientific := rounded_ofScientific Nat.one_pos false exponent rfl (by simp; omega)
    (by simp; omega)
  simpa using scientific

theorem within_powerOfTen {exponent : Nat} (small : exponent ≤ 308) :
    Within (Float.ofScientific 1 false exponent) (10 ^ exponent * (1 + 1 / 2 ^ 53)) := by
  have inside : 10 ^ 308 * (2 ^ 53 + 1) < 2 ^ 1024 * 2 ^ 53 := by decide +kernel
  apply (rounded_tenTo small).within (one_le_pow₀ (by norm_num))
  have most : (10 : ℚ) ^ exponent ≤ 10 ^ 308 := pow_le_pow_right₀ (by norm_num) small
  calc (10 : ℚ) ^ exponent * (1 + 1 / 2 ^ 53) ≤ 10 ^ 308 * (1 + 1 / 2 ^ 53) := by gcongr
    _ = 10 ^ 308 * (2 ^ 53 + 1) / 2 ^ 53 := by generalize (10 : ℚ) ^ 308 = most; ring
    _ < 2 ^ 1024 := (div_lt_iff₀ (by positivity)).mpr (by exact_mod_cast inside)

end Reckoner.Decimal
