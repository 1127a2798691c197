import Reckoner.Proofs.Decimal.Brevity
import Reckoner.Proofs.Json.Readable

/-!
Which steps a written double takes through the reader. Its digits are few enough to be gathered into
one word without loss, zeros at the end included, and its exponent is small. So the double that is
read is that word scaled by one power of ten, with the sign of the double that was written.
-/

namespace Reckoner.Decimal

def Numeral.word (numeral : Numeral) : Nat :=
  digitsValue 0 (numeral.whole ++ numeral.part)

def Numeral.scale (numeral : Numeral) : Int :=
  numeral.exponent.getD 0 - numeral.part.length

theorem Numeral.size_eq (numeral : Numeral) :
    numeral.size = numeral.word * (10 : ℚ) ^ numeral.scale :=
  rfl

theorem word_positional (negative : Bool) (count : Nat) (digits : List Char) (exponent : Int) :
    (Numeral.positional negative (zeros count) digits exponent).word =
      digitsValue 0 digits * 10 ^ (if 0 ≤ exponent then exponent.toNat + count else 0) := by
  unfold Numeral.positional
  extract_lets lead
  split
  · have all : zeros exponent.toNat ++ zeros count = zeros (exponent.toNat + count) :=
      List.replicate_append_replicate
    simp only [Numeral.word, List.append_assoc, all, digitsValue_append_zeros]
  · have pad : ['0'] ++ (zeros (-lead).toNat ++ digits) = zeros ((-lead).toNat + 1) ++ digits := rfl
    split
    · simp [Numeral.word]
    · simp only [Numeral.word, pad, digitsValue_zeros, pow_zero, mul_one]

theorem word_scientific (negative : Bool) (digits : List Char) (exponent : Int) :
    (Numeral.scientific negative digits exponent).word = digitsValue 0 digits := by
  simp only [Numeral.word, Numeral.scientific, List.take_append_drop]

end Reckoner.Decimal

namespace Reckoner.Json

open Reckoner.Decimal

theorem gatherPart_eq {start : Nat} {part : List Char}
    (fits : Word64.fits (digitsValue start part) = true) :
    gatherPart start part = (digitsValue start part, part.length) := by
  induction part generalizing start with
  | nil => rfl
  | cons digit rest ih =>
      rw [digitsValue_cons] at fits ⊢
      unfold gatherPart
      rw [if_pos (fits_of_digitsValue fits), ih fits]
      rfl

theorem sizeOf?_eq {numeral : Numeral} (fits : numeral.word < 2 ^ 64)
    (near : ∀ written, numeral.exponent = some written → written.natAbs < writtenLimit) :
    sizeOf? numeral = scale? numeral.word numeral.scale := by
  have split : numeral.word = digitsValue (digitsValue 0 numeral.whole) numeral.part :=
    List.foldl_append
  have fits := fits_of_lt fits
  rw [split] at fits
  unfold sizeOf?
  rw [gatherWhole_eq (fits_of_digitsValue fits)]
  dsimp only
  rw [gatherPart_eq fits, split, Numeral.scale]
  cases exponent : numeral.exponent with
  | none =>
      dsimp only [Option.getD_none]
      congr 1
  | some written =>
      dsimp only [Option.getD_some]
      rw [if_pos (near written exponent)]
      congr 1
      omega

section
variable {binary : Binary} (canonical : binary.Canonical) (negative : Bool)
include canonical

theorem word_finite_lt : (layout.finite negative binary).word < 2 ^ 64 := by
  have few : digitsValue 0 (digitList (binary.shortest layout.tie).digits) ≤ 10 ^ 17 := by
    rw [digitsValue_digitList]
    exact shortest_digits_le canonical layout.tie
  have small : 10 ^ 17 < 2 ^ 64 := by decide
  unfold Layout.finite
  extract_lets decimal digits
  split
  · rename_i near
    have lead := lt_of_positional near
    have trailing : layout.trailing = zeros 1 := rfl
    rw [trailing, word_positional]
    split
    · have decimalDigits : ∀ c ∈ digits, isDecimalDigit c = true :=
        fun c member => isDecimalDigit_of_mem_digitList member
      have less := digitsValue_lt 0 decimalDigits
      rw [Nat.zero_add, Nat.one_mul] at less
      calc digitsValue 0 digits * 10 ^ (decimal.exponent.toNat + 1)
          ≤ 10 ^ digits.length * 10 ^ (decimal.exponent.toNat + 1) :=
            Nat.mul_le_mul_right _ (le_of_lt less)
        _ = 10 ^ (digits.length + (decimal.exponent.toNat + 1)) := (Nat.pow_add _ _ _).symm
        _ ≤ 10 ^ 17 := Nat.pow_le_pow_right (by decide) (by omega)
        _ < 2 ^ 64 := small
    · rw [pow_zero, mul_one]
      exact Nat.lt_of_le_of_lt few small
  · rw [word_scientific]
    exact Nat.lt_of_le_of_lt few small

theorem exponent_finite_lt {written : Int}
    (exponent : (layout.finite negative binary).exponent = some written) :
    written.natAbs < writtenLimit := by
  have positive := shortest_pos canonical.positive layout.tie
  obtain ⟨above, below⟩ := (covers_shortest canonical.positive layout.tie).range canonical
  obtain ⟨least, most⟩ := decimal_range positive (binary.shortest layout.tie).exponent
  have high := (zpow_lt_zpow_iff_right₀ (by norm_num)).mp (lt_of_le_of_lt least below)
  have low := (zpow_lt_zpow_iff_right₀ (by norm_num)).mp (lt_trans above most)
  have lead : written = (digitCount (binary.shortest layout.tie).digits : Int) +
      (binary.shortest layout.tie).exponent - 1 := by
    revert exponent
    unfold Layout.finite Numeral.positional
    extract_lets decimal digits place
    split
    · split_ifs <;> simp
    · intro exponent
      exact (Option.some.inj exponent).symm
  unfold writtenLimit
  omega

theorem number?_finite :
    number? (layout.finite negative binary) =
      (sizeOf? (layout.finite negative binary)).map
        fun size => .real (if negative then -size else size) := by
  have significant := significant_digitList (shortest_pos canonical.positive layout.tie)
  have real : ((layout.finite negative binary).part.isEmpty &&
      (layout.finite negative binary).exponent.isNone) = false := by
    unfold Layout.finite
    extract_lets decimal digits
    split
    · rename_i near
      have lead : (digits.length : Int) + decimal.exponent ≤ 16 := by
        have less := lt_of_positional near
        omega
      obtain ⟨-, pointed, -⟩ := positional_short negative trailing_ne_nil significant.filled lead
      have filled : (Numeral.positional negative layout.trailing digits
          decimal.exponent).part.isEmpty = false := List.isEmpty_eq_false_iff.mpr pointed
      rw [filled]
      rfl
    · exact Bool.and_false _
  unfold number?
  rw [real, negative_finite]
  simp

end

theorem float?_finite {value : Float} {binary : Binary}
    (size : Decimal.sizeOf value = .finite binary) :
    (Value.ofFloat value).float? =
      (scale? (layout.finite (isNegative value) binary).word
        (layout.finite (isNegative value) binary).scale).map
          fun size => if isNegative value then -size else size := by
  have canonical := canonical_of_sizeOfBits size
  have written : layout.numeral? value = some (layout.finite (isNegative value) binary) := by
    rw [Layout.numeral?, size]
  have gathered : sizeOf? (layout.finite (isNegative value) binary) =
      scale? (layout.finite (isNegative value) binary).word
        (layout.finite (isNegative value) binary).scale :=
    sizeOf?_eq (word_finite_lt canonical _) fun _ => exponent_finite_lt canonical _
  simp only [Value.ofFloat, written, Value.float?, scalar?, number?_finite canonical, gathered]
  cases scale? (layout.finite (isNegative value) binary).word
    (layout.finite (isNegative value) binary).scale <;> rfl

end Reckoner.Json
