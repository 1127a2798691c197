import Reckoner.Proofs.Decimal.Error
import Reckoner.Proofs.Json.Gathering

/-!
How far a word that is scaled by a power of ten lands from the exact number. The word is rounded and
so are the power and the product or quotient. A very small number takes two quotients. Whether the
last rounding gives a double is told by the number that is rounded then, which is the exact one
where word and power are doubles themselves.
-/

namespace Reckoner.Json

open Reckoner.Decimal

theorem exists_power {exponent : Nat} (small : exponent ≤ 308) :
    ∃ power, Stands (powerOfTen exponent) power ∧ Close power (10 ^ exponent) 1 := by
  have one : (1 : ℚ) ≤ 10 ^ exponent := one_le_pow₀ (by norm_num)
  have exact : Close ((10 : ℚ) ^ exponent) (10 ^ exponent) 0 := Close.refl (by positivity)
  rcases (rounded_tenTo small).tracks exact (by decide) one with ⟨infinite, -⟩ | nears
  · have finite := (within_powerOfTen small).isInf
    rw [infinite] at finite
    exact absurd finite (by decide +kernel)
  · exact nears

theorem stands_powerOfTen {exponent : Nat} (short : exponent ≤ 22) :
    Stands (powerOfTen exponent) (10 ^ exponent) := by
  have rounded := rounded_tenTo (by omega : exponent ≤ 308)
  rw [tens_eq] at rounded ⊢
  exact rounded.stands_shifted (Nat.pow_pos (by decide)) (fives_lt (by omega)) (by omega)

theorem smallest_lt_quotient {number power : ℚ} (half : 1 / 2 ≤ number) (positive : 0 < power)
    (high : power ≤ 2 * 10 ^ 308) : (2 : ℚ) ^ (-1074 : Int) < 2 * (number / power) := by
  have room : 2 * 10 ^ 308 < 2 ^ 1074 := by decide +kernel
  have cast : (2 * 10 ^ 308 : ℚ) < 2 ^ (1074 : Int) := by exact_mod_cast room
  have far : (2 : ℚ) ^ (-1074 : Int) * power < 1 := by
    rw [zpow_neg, inv_mul_lt_one₀ (by positivity)]
    exact high.trans_lt cast
  rw [← mul_div_assoc, lt_div_iff₀ positive]
  linarith

theorem quotient_around {value : Float} {number exact : ℚ} {rounds exponent : Nat}
    (denotes : Denotes value number) (most : number ≤ greatestFinite)
    (around : Around number exact rounds) (filled : 0 < exponent) (small : exponent ≤ 308) :
    isNegative (value / powerOfTen exponent) = false ∧
      ∃ number', Decimal.number? (value / powerOfTen exponent) = some number' ∧
        Around number' (exact / 10 ^ exponent) (rounds + 2) ∧
          (1 / 2 ≤ number → Denotes (value / powerOfTen exponent) number') := by
  obtain ⟨power, stands, close⟩ := exists_power small
  obtain ⟨above, below⟩ := close.double (by decide)
  have positive := denotes.pos
  have ten : (10 : ℚ) ≤ 10 ^ exponent := le_self_pow₀ (by norm_num) (Nat.ne_of_gt filled)
  have rounded := denotes.div stands.denotes
  have less : number / power ≤ number := div_le_self (le_of_lt positive) (by linarith)
  obtain ⟨number', found, nearest, finite⟩ :=
    rounded.around (div_pos positive stands.pos) (less.trans most)
  refine ⟨rounded.isNegative, number', found, ?_, ?_⟩
  · have divisor : Around (number / power) (number / 10 ^ exponent) 1 :=
      Nat.zero_add 1 ▸ ((Close.refl positive).div close).around
    have total := (nearest.trans divisor).trans (around.div (by linarith : (1 : ℚ) ≤ 10 ^ exponent))
    rwa [Nat.add_comm] at total
  · intro half
    have high : power ≤ 2 * 10 ^ 308 := above.trans
      (mul_le_mul_of_nonneg_left (pow_le_pow_right₀ (by norm_num) small) (by norm_num))
    exact finite (smallest_lt_quotient half stands.pos high)

/-- What becomes of a word: the power of ten is a factor, a divisor, or two divisors one after the
other. -/
inductive Scaled (word : Nat) : Int → Float → Prop
  | up {places : Nat} (small : places ≤ 308)
      (finite : (ofWord word * powerOfTen places).isInf = false) :
      Scaled word places (ofWord word * powerOfTen places)
  | down {places : Nat} (filled : 0 < places) (small : places ≤ 308) :
      Scaled word (-places) (ofWord word / powerOfTen places)
  | twice {places : Nat} (filled : 0 < places) (small : places ≤ 308) :
      Scaled word (-(308 + places : ℕ)) (ofWord word / powerOfTen 308 / powerOfTen places)

def lastStep (word : Nat) (scale : Int) : ℚ :=
  if 0 ≤ scale then number (ofWord word) * number (powerOfTen scale.natAbs)
  else if scale.natAbs ≤ powerLimit then number (ofWord word) / number (powerOfTen scale.natAbs)
  else number (ofWord word / powerOfTen powerLimit) /
    number (powerOfTen (scale.natAbs - powerLimit))

section
variable {word : Nat} (positive : 0 < word) (fits : word < 2 ^ 64)
include positive fits

theorem scaled_of_scale? {scale : Int} {value : Float} (low : -616 ≤ scale)
    (found : scale? word scale = some value) : Scaled word scale value := by
  have limit : powerLimit = 308 := rfl
  have filled : (ofWord word == 0.0) = false := by
    obtain ⟨number, stands, -⟩ := nears_ofWord positive fits
    exact stands.denotes.beq_zero
  unfold scale? at found
  extract_lets start at found
  split at found
  · rename_i negative
    obtain ⟨places, rfl⟩ := Int.exists_eq_neg_ofNat (le_of_lt negative)
    rw [Int.natAbs_neg, Int.natAbs_natCast, scaleDown, limit] at found
    split at found
    · rename_i small
      cases found
      exact .down (by omega) small
    · rename_i more
      obtain ⟨rest, rfl⟩ := Nat.exists_eq_add_of_le (Nat.le_of_not_le more)
      rw [filled, if_neg Bool.false_ne_true, Nat.add_sub_cancel_left, scaleDown, limit,
        if_pos (by omega)] at found
      cases found
      exact .twice (by omega) (by omega)
  · rename_i nonnegative
    obtain ⟨places, rfl⟩ := Int.eq_ofNat_of_zero_le (Int.not_lt.mp nonnegative)
    rw [Int.natAbs_natCast, scaleUp?, limit] at found
    split at found
    · rename_i small
      extract_lets scaled at found
      split at found
      · contradiction
      · rename_i finite
        obtain rfl := Option.some.inj found
        exact .up small (Bool.eq_false_iff.mpr finite)
    · rw [filled] at found
      contradiction

theorem half_le_ofWord : ∃ number, Stands (ofWord word) number ∧ Close number word 1 ∧
    1 / 2 ≤ number := by
  obtain ⟨number, stands, close⟩ := nears_ofWord positive fits
  have one : (1 : ℚ) ≤ word := by exact_mod_cast positive
  have double := (close.double (by decide)).2
  exact ⟨number, stands, close, by linarith⟩

theorem Scaled.lands {scale : Int} {value : Float} (scaled : Scaled word scale value) :
    Lands value (word * 10 ^ scale) 5 := by
  obtain ⟨number, stands, close, half⟩ := half_le_ofWord positive fits
  cases scaled with
  | @up places small finite =>
      have one : (1 : ℚ) ≤ word * 10 ^ places :=
        one_le_mul_of_one_le_of_one_le (by exact_mod_cast positive) (one_le_pow₀ (by norm_num))
      have nears : Nears (ofWord word) word 1 := ⟨number, stands, close⟩
      rw [zpow_natCast]
      rcases nears.mul (exists_power small) (by decide) one with ⟨infinite, -⟩ | near
      · rw [infinite] at finite
        exact absurd finite (by decide +kernel)
      · obtain ⟨sign, number', found, around⟩ := near.lands
        exact ⟨sign, number', found, around.mono (by positivity) (by decide)⟩
  | @down places filled small =>
      obtain ⟨sign, number', found, around, -⟩ :=
        quotient_around stands.denotes stands.le_greatestFinite close.around filled small
      rw [zpow_neg, zpow_natCast, ← div_eq_mul_inv]
      exact ⟨sign, number', found, around.mono (by positivity) (by decide)⟩
  | @twice places filled small =>
      obtain ⟨-, number', found, around, finite⟩ :=
        quotient_around stands.denotes stands.le_greatestFinite close.around (by decide)
          (Nat.le_refl 308)
      obtain ⟨sign, number'', found', around', -⟩ :=
        quotient_around (finite half) (number?_le found) around filled small
      rw [zpow_neg, zpow_natCast, pow_add, ← div_eq_mul_inv, ← div_div]
      exact ⟨sign, number'', found', around'⟩

theorem Scaled.rounded {scale : Int} {value : Float} (scaled : Scaled word scale value) :
    Rounded value (lastStep word scale) := by
  obtain ⟨number, stands, close, half⟩ := half_le_ofWord positive fits
  unfold lastStep
  cases scaled with
  | @up places small finite =>
      obtain ⟨power, stands', -⟩ := exists_power small
      rw [if_pos (by omega), Int.natAbs_natCast, stands.number_eq, stands'.number_eq]
      exact stands.mul stands'
  | @down places filled small =>
      obtain ⟨power, stands', -⟩ := exists_power small
      rw [if_neg (by omega), Int.natAbs_neg, Int.natAbs_natCast, if_pos (by exact small),
        stands.number_eq, stands'.number_eq]
      exact stands.div stands'
  | @twice places filled small =>
      obtain ⟨power, stands', -⟩ := exists_power small
      obtain ⟨-, number', found, -, finite⟩ :=
        quotient_around stands.denotes stands.le_greatestFinite close.around (by decide)
          (Nat.le_refl 308)
      have limit : powerLimit = 308 := rfl
      rw [if_neg (by omega), Int.natAbs_neg, Int.natAbs_natCast, limit, if_neg (by omega),
        Nat.add_sub_cancel_left, stands'.number_eq, Decimal.number, found, Option.getD_some]
      exact (finite half).div stands'.denotes

theorem Scaled.sizeOf_iff {scale : Int} {value : Float} (scaled : Scaled word scale value)
    {binary : Binary} (canonical : binary.Canonical) :
    Decimal.sizeOf value = .finite binary ↔ binary.Covers (lastStep word scale) := by
  have rounded := scaled.rounded positive fits
  exact ⟨rounded.covers, rounded.sizeOf_eq canonical⟩

end

theorem lastStep_eq {digits shift : Nat} {scale : Int} (positive : 0 < digits)
    (small : digits < 2 ^ 53) (fits : digits * 2 ^ shift < 2 ^ 64) (short : scale.natAbs ≤ 22) :
    lastStep (digits * 2 ^ shift) scale = (digits * 2 ^ shift : ℕ) * 10 ^ scale := by
  have near : shift ≤ 900 := by
    have power : 2 ^ shift < 2 ^ 64 := lt_of_le_of_lt (Nat.le_mul_of_pos_left _ positive) fits
    have less := (Nat.pow_lt_pow_iff_right (by decide)).mp power
    omega
  have rounded := rounded_ofWord (Nat.mul_pos positive (Nat.two_pow_pos shift)) fits
  rw [Nat.cast_mul, Nat.cast_pow, Nat.cast_ofNat] at rounded ⊢
  have word := (rounded.stands_shifted positive small near).number_eq
  have power := (stands_powerOfTen short).number_eq
  unfold lastStep
  split
  · rename_i nonnegative
    obtain ⟨places, rfl⟩ := Int.eq_ofNat_of_zero_le nonnegative
    rw [word, power, Int.natAbs_natCast, zpow_natCast]
  · rename_i negative
    obtain ⟨places, rfl⟩ := Int.exists_eq_neg_ofNat (le_of_lt (Int.not_le.mp negative))
    have limit : powerLimit = 308 := rfl
    rw [limit, if_pos (by omega), word, power, Int.natAbs_neg, Int.natAbs_natCast, zpow_neg,
      zpow_natCast, div_eq_mul_inv]

end Reckoner.Json
