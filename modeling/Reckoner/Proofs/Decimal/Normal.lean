import Reckoner.Proofs.Decimal.Rounding

/-!
Doubles as numbers. A finite double is a number, and no number of a double exceeds a greatest one.
The normal doubles without a sign are closed under products and quotients but for rounding, and
rounding changes nothing where the exact result is a whole number of at most 53 digits. Where the
exact result is too large the double is infinite, and so are all products and quotients after it.
-/

namespace Reckoner.Decimal

open Float.Model (Format UnpackedFloat)
open Float.Model.UnpackedFloat

/-- The number that a finite double is. -/
def number? (value : Float) : Option ℚ :=
  match sizeOf value with
  | .zero => some 0
  | .finite binary =>
      let size := binary.significand * (2 : ℚ) ^ binary.exponent
      some (if isNegative value then -size else size)
  | .infinite | .notANumber => none

def number (value : Float) : ℚ :=
  (number? value).getD 0

def greatestFinite : Nat :=
  (twoTo 53 - 1) * twoTo 971

theorem cast_greatestFinite : (greatestFinite : ℚ) = (2 ^ 53 - 1) * 2 ^ (971 : Int) := by
  have digits : ((twoTo 53 - 1 : ℕ) : ℚ) = 2 ^ 53 - 1 := by
    rw [Nat.cast_sub (by decide), cast_twoTo, Nat.cast_one]
  rw [greatestFinite, Nat.cast_mul, digits, cast_twoTo, zpow_ofNat]

-- Its digits are many, and no proof needs them but through its cast.
attribute [irreducible] greatestFinite

theorem number?_le {value : Float} {number : ℚ} (found : number? value = some number) :
    number ≤ greatestFinite := by
  rw [cast_greatestFinite]
  unfold number? at found
  split at found
  · cases found
    positivity
  · rename_i binary size
    have canonical := canonical_of_sizeOfBits size
    have digits : (binary.significand : ℚ) ≤ 2 ^ 53 - 1 := by
      have less : binary.significand + 1 ≤ 2 ^ 53 := canonical.small
      have cast : (binary.significand + 1 : ℚ) ≤ 2 ^ 53 := by exact_mod_cast less
      linarith
    have nonneg : (0 : ℚ) ≤ binary.significand * (2 : ℚ) ^ binary.exponent := by positivity
    have power : (2 : ℚ) ^ binary.exponent ≤ 2 ^ (971 : Int) :=
      zpow_le_zpow_right₀ (by norm_num) canonical.most
    generalize (2 : ℚ) ^ (971 : Int) = unit at power ⊢
    have most : binary.significand * (2 : ℚ) ^ binary.exponent ≤ (2 ^ 53 - 1) * unit :=
      mul_le_mul digits power (by positivity) (by norm_num)
    cases found
    split <;> linarith
  · cases found
  · cases found

theorem isGreatest_greatestFinite :
    IsGreatest {number | ∃ value, number? value = some number} (greatestFinite : ℚ) := by
  constructor
  · have size : sizeOf (.ofBits 0x7FEFFFFFFFFFFFFF) = .finite ⟨2 ^ 53 - 1, 971, false⟩ := rfl
    have sign : isNegative (.ofBits 0x7FEFFFFFFFFFFFFF) = false := rfl
    refine ⟨.ofBits 0x7FEFFFFFFFFFFFFF, ?_⟩
    rw [number?, size, cast_greatestFinite]
    norm_num [sign]
  · rintro number ⟨value, found⟩
    exact number?_le found

/-- Whether a double is a number and has 53 digits for it, and no sign. -/
def Stands (value : Float) (number : ℚ) : Prop :=
  ∃ significand exponent positive,
    value.toModel.unpack = .finite .positive significand exponent positive ∧
      significand.log2 = 52 ∧ -1074 ≤ exponent ∧ exponent ≤ 971 ∧
      number = significand * 2 ^ exponent

theorem eq_of_isNaN {value other : Float} (nan : value.isNaN = true) (nan' : other.isNaN = true) :
    value = other := by
  have size {value : Float} (nan : value.isNaN = true) : sizeOf value = .notANumber := by
    have reads := reads_unpack value
    change value.toModel.unpack.isNaN = true at nan
    generalize value.toModel.unpack = unpacked at reads nan
    cases reads with
    | notANumber size => exact size
    | _ => contradiction
  rw [eq_notANumber (size nan), eq_notANumber (size nan')]

theorem infinite_unpack : (1.0 / 0.0 : Float).toModel.unpack = .infinity .positive :=
  rfl

theorem infinite_of_exponent {significand : Nat} {exponent : Int} {positive : 0 < significand}
    (high : 971 < exponent) :
    Float.ofModel (.pack (.finite .positive significand exponent positive)) = 1.0 / 0.0 := by
  have packed : pack Format.binary64 (.finite .positive significand exponent positive) =
      packedInfinity Format.binary64 .positive := by
    have biased : 2 ^ Format.binary64.exponentBits ≤
        (exponent + (Format.binary64.exponentBias : Int) +
          (Format.binary64.mantissaBitsWithoutImplicit : Int)).toNat + 1 := by
      simp [Format.exponentBias]
      omega
    unfold pack
    dsimp only
    rw [if_pos biased]
  apply toBits_inj
  change (pack Format.binary64 (.finite .positive significand exponent positive)).toNat = _
  rw [packed]
  rfl

namespace Stands

section
variable {value : Float} {number : ℚ} (stands : Stands value number)
include stands

theorem isFinite : value.isFinite = true := by
  obtain ⟨_, _, _, unpacked, -⟩ := stands
  rw [Float.isFinite, Float.Model.isFinite, unpacked]
  rfl

theorem isInf : value.isInf = false := by
  obtain ⟨_, _, _, unpacked, -⟩ := stands
  rw [Float.isInf, Float.Model.isInf, unpacked]
  rfl

theorem ne_infinite : value ≠ 1.0 / 0.0 := by
  rintro rfl
  exact absurd stands.isInf (by decide +kernel)

theorem pos : 0 < number := by
  obtain ⟨significand, exponent, positive, -, -, -, -, rfl⟩ := stands
  positivity

theorem sizeOf_eq : ∃ significand exponent, sizeOf value = .finite (.ofParts significand exponent) ∧
    isNegative value = false ∧ significand < 2 ^ 53 ∧ number = significand * 2 ^ exponent := by
  obtain ⟨significand, exponent, positive, unpacked, size, low, high, rfl⟩ := stands
  obtain ⟨least, most⟩ := bounds_of_log2 size
  have reads := reads_unpack value
  rw [unpacked] at reads
  cases reads with
  | finite _ _ _ _ size bit => exact ⟨significand, exponent, size, bit, most, rfl⟩

theorem number?_eq : number? value = some number := by
  obtain ⟨significand, exponent, size, sign, -, rfl⟩ := stands.sizeOf_eq
  rw [number?, size]
  simp only [sign]
  rfl

theorem number_eq : Decimal.number value = number := by
  rw [Decimal.number, stands.number?_eq, Option.getD_some]

theorem le_greatestFinite : number ≤ greatestFinite :=
  number?_le stands.number?_eq

theorem infinite_mul : (1.0 / 0.0 : Float) * value = 1.0 / 0.0 := by
  obtain ⟨_, _, _, unpacked, -⟩ := stands
  change Float.ofModel
    (.pack (mul Format.binary64 (1.0 / 0.0 : Float).toModel.unpack value.toModel.unpack)) = _
  rw [unpacked, infinite_unpack]
  rfl

theorem infinite_div : (1.0 / 0.0 : Float) / value = 1.0 / 0.0 := by
  obtain ⟨_, _, _, unpacked, -⟩ := stands
  change Float.ofModel
    (.pack (div Format.binary64 (1.0 / 0.0 : Float).toModel.unpack value.toModel.unpack)) = _
  rw [unpacked, infinite_unpack]
  rfl

end

section
variable {first second : Float} {number number' : ℚ}

theorem mul (stands : Stands first number) (stands' : Stands second number') :
    Rounded (first * second) (number * number') := by
  obtain ⟨_, _, _, unpacked, size, -, -, rfl⟩ := stands
  obtain ⟨_, _, _, unpacked', size', -, -, rfl⟩ := stands'
  exact rounded_mul unpacked unpacked' size size'

theorem div (stands : Stands first number) (stands' : Stands second number') :
    Rounded (first / second) (number / number') := by
  obtain ⟨_, _, _, unpacked, -, -, -, rfl⟩ := stands
  obtain ⟨_, _, _, unpacked', -, -, -, rfl⟩ := stands'
  exact rounded_div unpacked unpacked'

end

end Stands

theorem Rounded.stands_shifted {value : Float} {word shift : Nat}
    (rounded : Rounded value (word * 2 ^ shift)) (positive : 0 < word) (small : word < 2 ^ 53)
    (near : shift ≤ 900) : Stands value (word * 2 ^ shift) := by
  obtain ⟨significand, exponent, filled, unpacked, size, low, high, same⟩ :=
    rounded.exists_unpack positive small near
  exact ⟨significand, exponent, filled, unpacked, size, low, high, same.symm⟩

theorem exists_parts {word : Nat} (positive : 0 < word) (small : word ≤ 2 ^ 53) :
    ∃ (significand : Nat) (exponent : Int), significand.log2 = 52 ∧ -1074 ≤ exponent ∧
      exponent ≤ 971 ∧ (word : ℚ) = significand * 2 ^ exponent := by
  rcases Nat.lt_or_eq_of_le small with less | rfl
  · have bits : word.log2 < 53 := (Nat.log2_lt (Nat.ne_of_gt positive)).mpr less
    have most : (word * 2 ^ (52 - word.log2)).log2 < 53 := by
      rw [Nat.log2_lt (Nat.ne_of_gt (Nat.mul_pos positive (Nat.two_pow_pos _)))]
      calc word * 2 ^ (52 - word.log2) < 2 ^ (word.log2 + 1) * 2 ^ (52 - word.log2) :=
            Nat.mul_lt_mul_of_pos_right Nat.lt_log2_self (Nat.two_pow_pos _)
        _ = 2 ^ 53 := by rw [← Nat.pow_add]; congr 1; omega
    have least := le_log2_fill positive
    exact ⟨_, _, by omega, by omega, by omega, (fill_value word (52 - word.log2)).symm⟩
  · exact ⟨2 ^ 52, 1, Nat.log2_two_pow, by norm_num, by norm_num, by norm_num⟩

theorem Rounded.stands {value : Float} {word : Nat} (rounded : Rounded value word)
    (positive : 0 < word) (small : word ≤ 2 ^ 53) : Stands value word := by
  obtain ⟨significand, exponent, size, low, high, parts⟩ := exists_parts positive small
  rw [parts] at rounded ⊢
  obtain ⟨positive, unpacked⟩ := rounded.unpack_eq size low high
  exact ⟨significand, exponent, positive, unpacked, size, low, high, rfl⟩

theorem stands_ofWord {word : Nat} (positive : 0 < word) (small : word ≤ 2 ^ 53) :
    Stands (ofWord word) word :=
  (rounded_ofWord positive (by omega)).stands positive small

theorem Binary.round_eq {binary : Binary} (below : binary.exponent < 0) :
    binary.round = (2 * binary.significand + twoTo (-binary.exponent).toNat) /
      (2 * twoTo (-binary.exponent).toNat) := by
  have whole : twoTo binary.exponent.toNat = 1 := by rw [Int.toNat_of_nonpos (by omega)]; rfl
  rw [round, whole, Nat.mul_one]

theorem Binary.round_le (binary : Binary) (below : binary.exponent < 0)
    (small : binary.significand < 2 ^ 53) : binary.round ≤ 2 ^ 53 := by
  have half : 0 < twoTo (-binary.exponent).toNat := Nat.two_pow_pos _
  rw [round_eq below]
  apply Nat.div_le_of_le_mul
  omega

theorem Binary.round_eq_word {binary : Binary} {word : Nat} (below : binary.exponent < 0)
    (same : (word : ℚ) = binary.significand * 2 ^ binary.exponent) : binary.round = word := by
  have half : 0 < twoTo (-binary.exponent).toNat := Nat.two_pow_pos _
  have parts : word * twoTo (-binary.exponent).toNat = binary.significand := by
    have cast : ((word * twoTo (-binary.exponent).toNat : ℕ) : ℚ) = (binary.significand : ℚ) := by
      rw [Nat.cast_mul, cast_twoTo, ← zpow_natCast, Int.toNat_of_nonneg (by omega), same, mul_assoc,
        ← zpow_add₀ (by norm_num), Int.add_right_neg, zpow_zero, mul_one]
    exact_mod_cast cast
  rw [round_eq below, ← parts]
  generalize twoTo (-binary.exponent).toNat = half' at half
  rw [← Nat.mul_assoc, Nat.mul_right_comm, Nat.mul_add_div (by omega), Nat.div_eq_of_lt (by omega),
    Nat.add_zero]

namespace Stands

variable {value : Float}

theorem isFinite_roundAway {number : ℚ} (stands : Stands value number) :
    (Decimal.roundAway value).isFinite = true := by
  obtain ⟨significand, exponent, size, sign, small, -⟩ := stands.sizeOf_eq
  rw [Decimal.roundAway, size]
  dsimp only
  split
  · exact stands.isFinite
  · rename_i below
    have most := Binary.round_le (.ofParts significand exponent)
      (Int.not_le.mp below) small
    rw [sign, if_neg (by decide)]
    rcases Nat.eq_zero_or_pos (Binary.ofParts significand exponent).round with zero | positive
    · rw [zero]
      rfl
    · exact (stands_ofWord positive most).isFinite

theorem roundAway {word : Nat} (stands : Stands value word) :
    Stands (Decimal.roundAway value) word := by
  obtain ⟨significand, exponent, size, sign, small, same⟩ := stands.sizeOf_eq
  rw [Decimal.roundAway, size]
  dsimp only
  split
  · exact stands
  · rename_i below
    have rounded : (Binary.ofParts significand exponent).round = word :=
      Binary.round_eq_word (Int.not_le.mp below) same
    have most := Binary.round_le (.ofParts significand exponent)
      (Int.not_le.mp below) small
    rw [sign, if_neg (by decide), rounded]
    exact stands_ofWord (by exact_mod_cast stands.pos) (rounded ▸ most)

end Stands

theorem Rounded.stands_or_infinite {value : Float} {number : ℚ} (rounded : Rounded value number)
    (low : 1 / 2 ≤ number) :
    (value = 1.0 / 0.0 ∧ greatestFinite < number) ∨
      ∃ number', Stands value number' ∧ number' ≤ number * (1 + 1 / 2 ^ 53) ∧
        number ≤ number' * (1 + 1 / 2 ^ 53) := by
  have low' : (2 : ℚ) ^ (-1 : Int) ≤ number := by
    norm_num
    linarith
  obtain ⟨whole, target, positive, rfl, size, least, covers⟩ := rounded.parts (by norm_num) low'
  obtain ⟨more, less⟩ := bounds_of_log2 size
  have unit : (0 : ℚ) < 2 ^ target := by positivity
  have digits : (2 : ℚ) ^ 52 ≤ whole := by exact_mod_cast more
  by_cases high : target ≤ 971
  · right
    refine ⟨whole * 2 ^ target, ⟨whole, target, positive,
      unpack_pack positive less (by omega) (fun _ => more) high, size, by omega, high, rfl⟩,
      covers_ofParts_le covers more (by omega), ?_⟩
    have top : 4 * number ≤ (4 * whole + 2) * 2 ^ target := covers.high
    have scaled : (2 : ℚ) ^ 52 * 2 ^ target ≤ whole * 2 ^ target :=
      mul_le_mul_of_nonneg_right digits (le_of_lt unit)
    linarith
  · left
    refine ⟨infinite_of_exponent (by omega), ?_⟩
    have unit' : (0 : ℚ) < 2 ^ (971 : Int) := by positivity
    have least := covers.ge more (by omega)
    rw [cast_greatestFinite]
    generalize (2 : ℚ) ^ (971 : Int) = unit' at *
    linarith

end Reckoner.Decimal
