import Mathlib.Tactic.SplitIfs
import Reckoner.Decimal.Binary

/-!
Theory of the values of doubles. There are two zeros, two infinities and a single double that is no
number, and the significand of any other double is positive.
-/

namespace Reckoner.Decimal

open Float.Model (Format)
open Float.Model.UnpackedFloat (unpackExponent unpackMantissa)

theorem toBits_inj {left right : Float} (same : left.toBits.toNat = right.toBits.toNat) :
    left = right := by
  obtain ⟨⟨bits, valid⟩⟩ := left
  obtain ⟨⟨bits', valid'⟩⟩ := right
  cases UInt64.toNat_inj.mp same
  rfl

theorem sizeOfBits_cases (bits : Nat) :
    match sizeOfBits bits with
    | .zero => bits % twoTo 63 = 0
    | .finite binary => 0 < binary.significand
    | .infinite => bits % twoTo 63 = 2047 * twoTo 52
    | .notANumber => bits / twoTo 52 % twoTo 11 = 2047 ∧ bits % twoTo 52 ≠ 0 := by
  have power63 : twoTo 63 = 9223372036854775808 := rfl
  have power52 : twoTo 52 = 4503599627370496 := rfl
  have power11 : twoTo 11 = 2048 := rfl
  unfold sizeOfBits
  extract_lets fraction biased
  split_ifs <;> simp only [fraction, biased, power63, power52, power11] at * <;> omega

theorem toNat_unpackExponent (bits : BitVec Format.binary64.numBits) :
    (unpackExponent bits).toNat = bits.toNat / twoTo 52 % twoTo 11 := by
  simp [unpackExponent, Nat.shiftRight_eq_div_pow, twoTo]

theorem toNat_unpackMantissa (bits : BitVec Format.binary64.numBits) :
    (unpackMantissa bits).toNat = bits.toNat % twoTo 52 := by
  simp [unpackMantissa, twoTo]

theorem eq_notANumber {value : Float} (size : sizeOf value = .notANumber) : value = 0.0 / 0.0 := by
  have fields := sizeOfBits_cases value.toBits.toNat
  rw [show sizeOfBits value.toBits.toNat = .notANumber from size] at fields
  obtain ⟨exponent, mantissa⟩ := fields
  obtain ⟨⟨bits, valid⟩⟩ := value
  apply toBits_inj
  refine congrArg BitVec.toNat (valid.eq_packedNaN (BitVec.eq_of_toNat_eq ?_) ?_)
  · rw [toNat_unpackExponent]
    exact exponent
  · intro zero
    have none := congrArg BitVec.toNat zero
    rw [toNat_unpackMantissa] at none
    exact mantissa none

theorem bits_cases (value : Float) {size : Nat} (same : value.toBits.toNat % twoTo 63 = size) :
    value.toBits.toNat = size ∨ value.toBits.toNat = twoTo 63 + size := by
  have small := value.toBits.toNat_lt
  rw [show twoTo 63 = 9223372036854775808 from rfl] at same ⊢
  omega

theorem eq_zero {value : Float} (size : sizeOf value = .zero) : value = 0.0 ∨ value = -0.0 := by
  have fields := sizeOfBits_cases value.toBits.toNat
  rw [show sizeOfBits value.toBits.toNat = .zero from size] at fields
  have plus : (0.0 : Float).toBits.toNat = 0 := by decide
  have minus : (-0.0 : Float).toBits.toNat = twoTo 63 + 0 := by decide
  rcases bits_cases value fields with positive | negative
  · exact Or.inl (toBits_inj (positive.trans plus.symm))
  · exact Or.inr (toBits_inj (negative.trans minus.symm))

theorem eq_infinite {value : Float} (size : sizeOf value = .infinite) :
    value = 1.0 / 0.0 ∨ value = -(1.0 / 0.0) := by
  have fields := sizeOfBits_cases value.toBits.toNat
  rw [show sizeOfBits value.toBits.toNat = .infinite from size] at fields
  have plus : (1.0 / 0.0 : Float).toBits.toNat = 2047 * twoTo 52 := by decide
  have minus : (-(1.0 / 0.0) : Float).toBits.toNat = twoTo 63 + 2047 * twoTo 52 := by decide
  rcases bits_cases value fields with positive | negative
  · exact Or.inl (toBits_inj (positive.trans plus.symm))
  · exact Or.inr (toBits_inj (negative.trans minus.symm))

theorem significand_pos {value : Float} {binary : Binary} (size : sizeOf value = .finite binary) :
    0 < binary.significand := by
  have fields := sizeOfBits_cases value.toBits.toNat
  rw [show sizeOfBits value.toBits.toNat = .finite binary from size] at fields
  exact fields

end Reckoner.Decimal
