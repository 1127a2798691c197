import Reckoner.Proofs.Decimal.Residue

/-!
Theory of packing: a double is unpacked to the sign and the size that its bits say, and the bits of
a packed number have its sign and its size, as long as it is not too large for a double.
-/

namespace Reckoner.Decimal

open Float.Model (Format UnpackedFloat totalExponent)
open Float.Model.UnpackedFloat

theorem toNat_unpackSign (bits : BitVec Format.binary64.numBits) :
    (unpackSign bits).toNat = bits.toNat / twoTo 63 % 2 := by
  change bits.toNat >>> 63 % 2 = _
  rw [Nat.shiftRight_eq_div_pow]
  rfl

theorem toNat_leading (fraction : BitVec 52) :
    (1#1 ++ fraction).toNat = 2 ^ 52 + fraction.toNat := by
  rw [BitVec.toNat_append, ← Nat.shiftLeft_add_eq_or_of_lt fraction.isLt]
  simp [Nat.shiftLeft_eq]

theorem unpackSign_components (sign : Sign) (exponent : BitVec 11) (mantissa : BitVec 52) :
    unpackSign (packComponents Format.binary64 sign exponent mantissa) = sign.toBitVec := by
  have last : (sign.toBitVec ++ exponent ++ mantissa).getLsbD 63 = sign.toBitVec[0] := by
    rw [BitVec.getLsbD_append, BitVec.getLsbD_append]
    rfl
  ext i within
  obtain rfl : i = 0 := by omega
  delta unpackSign packComponents
  simp only [BitVec.extractLsb, BitVec.getElem_cast, BitVec.getElem_extractLsb']
  exact last

theorem isNegative_eq {value : Float} {bit : BitVec 1}
    (last : bit.toNat = value.toBits.toNat / twoTo 63 % 2) :
    isNegative value = (bit == 1#1) := by
  have small := value.toBits.toNat_lt
  have power : twoTo 63 = 2 ^ 63 := rfl
  have digits : bit = 0#1 ∨ bit = 1#1 := by
    clear last
    decide +revert
  rw [power] at last
  rw [isNegative, power]
  rcases digits with rfl | rfl
  · exact decide_eq_false (by simp at last; omega)
  · exact decide_eq_true (by simp at last; omega)

theorem toBitVec_ofBitVec (bit : BitVec 1) : (Sign.ofBitVec bit).toBitVec = bit := by
  decide +revert

section
variable {value : Float} {sign : Sign} {exponent : BitVec 11} {mantissa : BitVec 52}
  (bits : value.toBits.toBitVec = packComponents Format.binary64 sign exponent mantissa)
include bits

theorem fields_packComponents :
    value.toBits.toNat / twoTo 52 % twoTo 11 = exponent.toNat ∧
      value.toBits.toNat % twoTo 52 = mantissa.toNat := by
  have whole : value.toBits.toNat =
      (packComponents Format.binary64 sign exponent mantissa).toNat := congrArg BitVec.toNat bits
  rw [whole, ← toNat_unpackExponent, ← toNat_unpackMantissa, unpackExponent_packComponents,
    unpackMantissa_packComponents]
  exact ⟨rfl, rfl⟩

theorem isNegative_packComponents : isNegative value = (sign.toBitVec == 1#1) := by
  have whole : value.toBits.toNat =
      (packComponents Format.binary64 sign exponent mantissa).toNat := congrArg BitVec.toNat bits
  have bit : value.toBits.toNat / twoTo 63 % 2 = sign.toBitVec.toNat := by
    rw [whole, ← toNat_unpackSign, unpackSign_components]
  exact isNegative_eq bit.symm

end

theorem isNarrow_fields (biased fraction : Nat) :
    (fraction == 0 && biased != 1) =
      decide (2 ^ 52 + fraction = 2 ^ 52 ∧ (biased : Int) - 1075 ≠ -1074) := by
  rw [Bool.eq_iff_iff]
  simp only [Bool.and_eq_true, beq_iff_eq, bne_iff_ne, decide_eq_true_eq]
  omega

/-- What an unpacked double says of the sign and the size of the double. -/
inductive Reads (value : Float) : UnpackedFloat → Prop
  | notANumber (size : sizeOf value = .notANumber) : Reads value .notANumber
  | infinity (sign : Sign) (size : sizeOf value = .infinite) : Reads value (.infinity sign)
  | zero (sign : Sign) (size : sizeOf value = .zero) : Reads value (.zero sign)
  | finite (sign : Sign) (significand : Nat) (exponent : Int) (positive : 0 < significand)
      (size : sizeOf value = .finite (.ofParts significand exponent))
      (bit : isNegative value = (sign.toBitVec == 1#1)) :
      Reads value (.finite sign significand exponent positive)

theorem reads_unpack (value : Float) : Reads value value.toModel.unpack := by
  let bits : BitVec Format.binary64.numBits := value.toBits.toBitVec
  have biased : (unpackExponent bits).toNat = value.toBits.toNat / twoTo 52 % twoTo 11 :=
    toNat_unpackExponent bits
  have fraction : (unpackMantissa bits).toNat = value.toBits.toNat % twoTo 52 :=
    toNat_unpackMantissa bits
  have sign : isNegative value = ((Sign.ofBitVec (unpackSign bits)).toBitVec == 1#1) := by
    rw [toBitVec_ofBitVec]
    exact isNegative_eq (toNat_unpackSign bits)
  have size : sizeOf value = sizeOfBits value.toBits.toNat := rfl
  rw [sizeOfBits, ← biased, ← fraction] at size
  dsimp only at size
  have last : unpackExponent bits = -1#11 ↔ (unpackExponent bits).toNat = 2047 :=
    BitVec.toNat_inj.symm
  have first : unpackExponent bits = 0#11 ↔ (unpackExponent bits).toNat = 0 :=
    BitVec.toNat_inj.symm
  have none : unpackMantissa bits = 0#52 ↔ (unpackMantissa bits).toNat = 0 :=
    BitVec.toNat_inj.symm
  change Reads value (unpack Format.binary64 bits)
  delta unpack
  dsimp only
  by_cases infinite : unpackExponent bits = -1#11
  · rw [if_pos infinite]
    rw [if_pos (last.mp infinite)] at size
    by_cases zero : unpackMantissa bits = 0#52
    · rw [if_pos zero]
      rw [if_pos (none.mp zero)] at size
      exact .infinity _ size
    · rw [if_neg zero]
      rw [if_neg (mt none.mpr zero)] at size
      exact .notANumber size
  · rw [if_neg infinite]
    rw [if_neg (mt last.mpr infinite)] at size
    by_cases low : unpackExponent bits = 0#11
    · rw [if_pos low]
      rw [if_pos (first.mp low)] at size
      by_cases zero : unpackMantissa bits = 0#52
      · rw [dif_pos zero]
        rw [if_pos (none.mp zero)] at size
        exact .zero _ size
      · rw [dif_neg zero]
        rw [if_neg (mt none.mpr zero)] at size
        have level : ((unpackExponent bits).toNat : Int) -
            ((Format.binary64.exponentBias : Int) + (52 : Nat)) + 1 = -1074 := by
          rw [first.mp low]
          rfl
        refine .finite _ _ _ _ (size.trans ?_) sign
        rw [Binary.ofParts, level]
        simp
    · rw [if_neg low]
      rw [if_neg (mt first.mpr low)] at size
      have level : ((unpackExponent bits).toNat : Int) -
          ((Format.binary64.exponentBias : Int) + (52 : Nat)) =
            (unpackExponent bits).toNat - 1075 := rfl
      refine .finite _ _ _ _ (size.trans ?_) sign
      rw [Binary.ofParts, level, toNat_leading, isNarrow_fields]
      rfl

theorem bounds_of_log2 {significand : Nat} (size : significand.log2 = 52) :
    2 ^ 52 ≤ significand ∧ significand < 2 ^ 53 := by
  refine (Nat.log2_eq_iff ?_).mp size
  rintro rfl
  simp at size

theorem pack_normal {significand : Nat} {exponent : Int} (positive : 0 < significand)
    (size : significand.log2 = 52) (high : exponent ≤ 971) :
    pack Format.binary64 (.finite .positive significand exponent positive) =
      packComponents Format.binary64 .positive (BitVec.ofNat 11 (exponent + 1075).toNat)
        (BitVec.ofNat 52 significand) := by
  have biased : (exponent + (Format.binary64.exponentBias : Int) +
      (Format.binary64.mantissaBitsWithoutImplicit : Int)).toNat = (exponent + 1075).toNat := by
    simp [Format.exponentBias, Int.add_assoc]
  have inside : ¬2 ^ 11 ≤ (exponent + 1075).toNat + 1 := by omega
  have full : significand.log2 + 1 = Format.binary64.mantissaBits := by rw [size]; rfl
  unfold pack
  dsimp only
  rw [biased, if_neg inside, if_pos full]

theorem pack_subnormal {whole : Nat} (positive : 0 < whole) (small : whole < 2 ^ 52) :
    pack Format.binary64 (.finite .positive whole (-1074) positive) =
      packComponents Format.binary64 .positive 0 (BitVec.ofNat 52 whole) := by
  have lacking : ¬whole.log2 + 1 = Format.binary64.mantissaBits := by
    have bits := (Nat.log2_lt (Nat.ne_of_gt positive)).mpr small
    change ¬whole.log2 + 1 = 53
    omega
  have inside : ¬2 ^ Format.binary64.exponentBits ≤ ((-1074 : Int) +
      Format.binary64.exponentBias + Format.binary64.mantissaBitsWithoutImplicit).toNat + 1 := by
    decide
  unfold pack
  dsimp only
  rw [if_neg inside, if_neg lacking]
  rfl

theorem sizeOf_pack {whole : Nat} {target : Int} (positive : 0 < whole) (small : whole < 2 ^ 53)
    (least : -1074 ≤ target) (large : target ≠ -1074 → 2 ^ 52 ≤ whole) (most : target ≤ 971) :
    sizeOf (.ofModel (.pack (.finite .positive whole target positive))) =
      .finite (Binary.ofParts whole target) := by
  have power52 : twoTo 52 = 2 ^ 52 := rfl
  by_cases normal : 2 ^ 52 ≤ whole
  · have size : whole.log2 = 52 := (Nat.log2_eq_iff (Nat.ne_of_gt positive)).mpr ⟨normal, small⟩
    have bits : (Float.ofModel (.pack (.finite .positive whole target positive))).toBits.toBitVec =
        packComponents Format.binary64 .positive (BitVec.ofNat 11 (target + 1075).toNat)
          (BitVec.ofNat 52 whole) := pack_normal positive size most
    obtain ⟨biased, fraction⟩ := fields_packComponents bits
    have field : (BitVec.ofNat 11 (target + 1075).toNat).toNat = (target + 1075).toNat := by
      rw [BitVec.toNat_ofNat]
      exact Nat.mod_eq_of_lt (by omega)
    have part : (BitVec.ofNat 52 whole).toNat = whole - 2 ^ 52 := by
      rw [BitVec.toNat_ofNat]
      omega
    have joined : 2 ^ 52 + (whole - 2 ^ 52) = whole := by omega
    have shifted : ((target + 1075).toNat : Int) - 1075 = target := by omega
    rw [sizeOf, sizeOfBits, biased, fraction, field, part, isNarrow_fields, power52, joined,
      shifted, if_neg (by omega), if_neg (by omega), Binary.ofParts]
  · obtain rfl : target = -1074 := by
      by_contra above
      exact normal (large above)
    have bits : (Float.ofModel (.pack (.finite .positive whole (-1074) positive))).toBits.toBitVec =
        packComponents Format.binary64 .positive 0 (BitVec.ofNat 52 whole) :=
      pack_subnormal positive (by omega)
    obtain ⟨biased, fraction⟩ := fields_packComponents bits
    have part : (BitVec.ofNat 52 whole).toNat = whole := by
      rw [BitVec.toNat_ofNat]
      omega
    have narrow : decide (whole = 2 ^ 52 ∧ (-1074 : Int) ≠ -1074) = false := by simp
    rw [sizeOf, sizeOfBits, biased, fraction, part, Binary.ofParts, narrow]
    simp [Nat.ne_of_gt positive]

theorem exists_components (whole : Nat) (target : Int) (positive : 0 < whole) :
    ∃ exponent mantissa, ∀ sign, pack Format.binary64 (.finite sign whole target positive) =
      packComponents Format.binary64 sign exponent mantissa := by
  unfold pack
  dsimp only
  split_ifs <;> exact ⟨_, _, fun _ => rfl⟩

theorem isNegative_pack {unpacked : UnpackedFloat}
    (unsigned : unpacked = .zero .positive ∨
      ∃ whole target positive, unpacked = .finite .positive whole target positive) :
    isNegative (.ofModel (.pack unpacked)) = false := by
  have packed : ∃ exponent mantissa, pack Format.binary64 unpacked =
      packComponents Format.binary64 .positive exponent mantissa := by
    rcases unsigned with rfl | ⟨whole, target, positive, rfl⟩
    · exact ⟨_, _, rfl⟩
    · obtain ⟨exponent, mantissa, components⟩ := exists_components whole target positive
      exact ⟨exponent, mantissa, components .positive⟩
  obtain ⟨exponent, mantissa, packed⟩ := packed
  have bits : (Float.ofModel (.pack unpacked)).toBits.toBitVec =
      packComponents Format.binary64 .positive exponent mantissa := packed
  rw [isNegative_packComponents bits]
  rfl

theorem unpack_pack {whole : Nat} {target : Int} (positive : 0 < whole) (small : whole < 2 ^ 53)
    (least : -1074 ≤ target) (large : target ≠ -1074 → 2 ^ 52 ≤ whole) (most : target ≤ 971) :
    (Float.Model.pack (.finite .positive whole target positive)).unpack =
      .finite .positive whole target positive := by
  have size := sizeOf_pack positive small least large most
  have sign := isNegative_pack (Or.inr ⟨whole, target, positive, rfl⟩)
  have reads := reads_unpack (.ofModel (.pack (.finite .positive whole target positive)))
  change Reads _ (Float.Model.pack _).unpack at reads
  generalize (Float.Model.pack _).unpack = unpacked at reads ⊢
  cases reads with
  | notANumber size' => cases size.symm.trans size'
  | infinity side size' => cases size.symm.trans size'
  | zero side size' => cases size.symm.trans size'
  | finite side significand exponent filled size' bit =>
      have same := Size.finite.inj (size.symm.trans size')
      obtain ⟨rfl, rfl, -⟩ := Binary.mk.inj same
      cases side with
      | positive => rfl
      | negative => cases sign.symm.trans bit

end Reckoner.Decimal
