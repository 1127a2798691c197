import Reckoner.Proofs.Json.Scaling
import Reckoner.Proofs.Record.Nesting

/-!
Finite doubles in records, alone or filed under names. Each is read back as a finite double with the
same sign, a few units of its last place away at most. It is the same double if the last number that
the reader rounds still rounds to it, as it does where the digits that were written are a double
themselves and so is their power of ten. The doubles that are not the same again may lie right below
one.
-/

namespace Reckoner

open Reckoner.Decimal Reckoner.Json

/-- Whether the digits of a numeral, read as a whole number, are a double, and so is its power of
ten. -/
def Decimal.Numeral.IsShort (numeral : Numeral) : Prop :=
  numeral.scale.natAbs ≤ 22 ∧
    ∃ digits shift, digits < 2 ^ 53 ∧ numeral.word = digits * 2 ^ shift

/-- What is sure of the double that a finite double is read back as. -/
structure Recovers (value read : Float) : Prop where
  sign : isNegative read = isNegative value
  near : ∃ number number', Decimal.number? value = some number ∧
    Decimal.number? read = some number' ∧
      |number' - number| ≤ |number| / 2 ^ 50 + 2 ^ (-1072 : Int)
  same_iff : ∀ numeral binary, layout.numeral? value = some numeral →
    Decimal.sizeOf value = .finite binary →
      (read = value ↔ binary.Covers (lastStep numeral.word numeral.scale))
  short : ∀ numeral, layout.numeral? value = some numeral → numeral.IsShort → read = value

theorem finite_of_isFinite {value : Float} (finite : value.isFinite = true) :
    Decimal.sizeOf value = .zero ∨ ∃ binary, Decimal.sizeOf value = .finite binary := by
  cases size : Decimal.sizeOf value with
  | zero => exact Or.inl rfl
  | finite binary => exact Or.inr ⟨binary, rfl⟩
  | infinite =>
      rcases eq_infinite size with rfl | rfl <;> exact absurd finite (by decide +kernel)
  | notANumber =>
      rw [eq_notANumber size] at finite
      exact absurd finite (by decide +kernel)

theorem recovers_zero {value : Float} (size : Decimal.sizeOf value = .zero) :
    reread value = value ∧ Recovers value value := by
  have back : (Value.ofFloat value).float? = some value := by
    apply float?_ofFloat
    intro binary finite
    rw [size] at finite
    contradiction
  have number : Decimal.number? value = some 0 := by rw [Decimal.number?, size]
  refine ⟨by rw [reread, back, Option.getD_some], rfl, ⟨0, 0, number, number, ?_⟩, ?_,
    fun _ _ _ => rfl⟩
  · rw [sub_self, abs_zero, zero_div, zero_add]
    positivity
  · intro numeral binary _ finite
    rw [size] at finite
    contradiction

section
variable {value : Float} {binary : Binary} (size : Decimal.sizeOf value = .finite binary)
include size

theorem covers_written : binary.Covers ((layout.finite (isNegative value) binary).word *
    (10 : ℚ) ^ (layout.finite (isNegative value) binary).scale) := by
  rw [← Numeral.size_eq, size_finite]
  exact covers_shortest (significand_pos size) layout.tie

theorem written_range : 0 < (layout.finite (isNegative value) binary).word ∧
    -616 ≤ (layout.finite (isNegative value) binary).scale := by
  have canonical := canonical_of_sizeOfBits size
  have fits := word_finite_lt canonical (isNegative value)
  obtain ⟨above, -⟩ := (covers_written size).range canonical
  generalize layout.finite (isNegative value) binary = numeral at *
  constructor
  · apply Nat.pos_of_ne_zero
    intro none
    rw [none, Nat.cast_zero, zero_mul] at above
    exact absurd above (not_lt_of_ge (by positivity))
  · have few : (numeral.word : ℚ) ≤ 10 ^ (20 : Int) := by
      have cast : (numeral.word : ℚ) ≤ 2 ^ 64 := by exact_mod_cast le_of_lt fits
      exact cast.trans (by norm_num)
    have most : numeral.word * (10 : ℚ) ^ numeral.scale ≤ 10 ^ (20 + numeral.scale) := by
      rw [zpow_add₀ (by norm_num)]
      exact mul_le_mul_of_nonneg_right few (by positivity)
    have less := (zpow_lt_zpow_iff_right₀ (by norm_num)).mp (lt_of_lt_of_le above most)
    omega

theorem exists_reread : ∃ read,
    Scaled (layout.finite (isNegative value) binary).word
      (layout.finite (isNegative value) binary).scale read ∧
        reread value = if isNegative value then -read else read := by
  have canonical := canonical_of_sizeOfBits size
  obtain ⟨positive, low⟩ := written_range size
  have found := float?_reread value
  rw [float?_finite size] at found
  obtain ⟨read, scaled, same⟩ := Option.map_eq_some_iff.mp found
  exact ⟨read, scaled_of_scale? positive (word_finite_lt canonical _) low scaled, same.symm⟩

theorem near_reread : isNegative (reread value) = isNegative value ∧ ∃ number number',
    Decimal.number? value = some number ∧ Decimal.number? (reread value) = some number' ∧
      |number' - number| ≤ |number| / 2 ^ 50 + 2 ^ (-1072 : Int) := by
  have canonical := canonical_of_sizeOfBits size
  obtain ⟨positive, -⟩ := written_range size
  obtain ⟨read, scaled, same⟩ := exists_reread size
  obtain ⟨sign, number, found, landed⟩ := scaled.lands positive (word_finite_lt canonical _)
  have exact : (0 : ℚ) ≤ binary.significand * 2 ^ binary.exponent := by positivity
  have around := landed.trans ((covers_written size).around canonical).symm
  have bound := around.abs_sub_le exact
  have least : 8 * smallestHalf = 2 ^ (-1072 : Int) := by
    rw [show (-1072 : Int) = -1074 + 2 by norm_num, zpow_add₀ (by norm_num), ← two_smallestHalf]
    norm_num
    ring
  rw [least] at bound
  rw [same, Decimal.number?, size]
  cases isNegative value with
  | false =>
      refine ⟨sign, _, number, rfl, found, ?_⟩
      simpa [abs_of_nonneg exact] using bound
  | true =>
      have opposite := (neg_of_number? found).2
      refine ⟨by simpa [sign] using opposite, _, -number, rfl, number?_neg found, ?_⟩
      simpa [abs_of_nonneg exact, neg_add_eq_sub, abs_sub_comm] using bound

theorem reread_eq_iff : reread value = value ↔
    binary.Covers (lastStep (layout.finite (isNegative value) binary).word
      (layout.finite (isNegative value) binary).scale) := by
  have canonical := canonical_of_sizeOfBits size
  have fits := word_finite_lt canonical (isNegative value)
  obtain ⟨positive, -⟩ := written_range size
  obtain ⟨read, scaled, same⟩ := exists_reread size
  obtain ⟨-, number, found, -⟩ := scaled.lands positive fits
  have sizes : Decimal.sizeOf (reread value) = Decimal.sizeOf read := by
    rw [same]
    split
    · exact (neg_of_number? found).1
    · rfl
  rw [← scaled.sizeOf_iff positive fits canonical, ← sizes]
  constructor
  · intro back
    rw [back, size]
  · intro back
    exact eq_of_sign_of_bits (near_reread size).1 (bits_eq_of_sizeOfBits back size)

theorem reread_eq (short : (layout.finite (isNegative value) binary).IsShort) :
    reread value = value := by
  have fits := word_finite_lt (canonical_of_sizeOfBits size) (isNegative value)
  have covers := covers_written size
  obtain ⟨positive, -⟩ := written_range size
  obtain ⟨few, digits, shift, small, word⟩ := short
  rw [reread_eq_iff size]
  rw [word] at fits positive covers ⊢
  rwa [lastStep_eq (Nat.pos_of_mul_pos_right positive) small fits few]

theorem recovers_finite : Recovers value (reread value) := by
  obtain ⟨sign, near⟩ := near_reread size
  have written : layout.numeral? value = some (layout.finite (isNegative value) binary) := by
    rw [Layout.numeral?, size]
  constructor
  case sign => exact sign
  case near => exact near
  case same_iff =>
    intro numeral binary' written' size'
    cases size.symm.trans size'
    cases written.symm.trans written'
    exact reread_eq_iff size
  case short =>
    intro numeral written' short
    cases written.symm.trans written'
    exact reread_eq size short

end

theorem recovers_reread {value : Float} (finite : value.isFinite = true) :
    Recovers value (reread value) := by
  rcases finite_of_isFinite finite with zero | ⟨binary, size⟩
  · obtain ⟨same, recovers⟩ := recovers_zero zero
    rwa [same]
  · exact recovers_finite size

/-- Every finite double, and every register of them, is read back from its text as doubles that are
near to those that were written and often the same. -/
theorem finite_numbers_recover {value : Float} (finite : value.isFinite = true)
    {register : Register Float} (filled : ∀ entry ∈ register.entries, entry.2.isFinite = true) :
    (∃ read, (Json.read? (Value.ofFloat value).toText).bind Value.float? = some read ∧
      Recovers value read) ∧
    ∃ read, (Json.read? register.toJson.toText).bind Register.ofJson? = some read ∧
      List.Forall₂ (fun entry entry' => entry'.1 = entry.1 ∧ Recovers entry.2 entry'.2)
        register.entries read.entries := by
  constructor
  · refine ⟨reread value, ?_, recovers_reread finite⟩
    rw [read?_toText (writable_ofFloat value)]
    exact float?_reread value
  · have writable : register.toJson.isWritable := by
      simp [Register.toJson, allSound_record, writable_ofFloat]
    refine ⟨register.map reread, ?_, ?_⟩
    · rw [read?_toText writable]
      exact Register.ofJson?_toJson fun entry _ => float?_reread entry.2
    · change List.Forall₂ _ register.entries
        (register.entries.map fun entry => (entry.1, reread entry.2))
      rw [List.forall₂_map_right_iff, List.forall₂_same]
      exact fun entry member => ⟨rfl, recovers_reread (filled entry member)⟩

theorem finite_numbers_recover_half :
    ReadsBack 0.5 ∧
      ∃ read, (Json.read? (Register.empty.insert "x" (0.5 : Float)).toJson.toText).bind
        Register.ofJson? = some read ∧ read.entries = [("x", 0.5)] := by
  have finite : (0.5 : Float).isFinite = true := by decide +kernel
  have short : Numeral.IsShort ⟨false, ['0'], ['5'], none⟩ := ⟨by decide, 5, 0, by decide, rfl⟩
  obtain ⟨⟨alone, back, recovers⟩, register, back', entries⟩ :=
    @finite_numbers_recover 0.5 finite (Register.empty.insert "x" 0.5) fun entry member =>
      List.mem_singleton.mp member ▸ finite
  constructor
  · rwa [recovers.short _ numeral?_half short] at back
  · refine ⟨register, back', ?_⟩
    have pairs : List.Forall₂ _ [("x", (0.5 : Float))] register.entries := entries
    generalize register.entries = read at pairs ⊢
    cases pairs with
    | cons first rest =>
        cases rest
        exact congrArg (· :: []) (Prod.ext first.1 (first.2.short _ numeral?_half short))

theorem numeral?_nines : layout.numeral? (.ofBits 0x3FEFFFFFFFFFFFFF) =
    some ⟨false, ['0'], List.replicate 16 '9', none⟩ := by
  have found : (List.range' 1 17).findSome? (Binary.withDigits? .even ⟨2 ^ 53 - 1, -53, false⟩) =
      some ⟨9999999999999999, -16⟩ := by decide +kernel
  have shortest : Binary.shortest layout.tie ⟨2 ^ 53 - 1, -53, false⟩ =
      ⟨9999999999999999, -16⟩ := by
    rw [Binary.shortest, layout, found, Option.getD_some, Digits.strip]
    decide
  have size : Decimal.sizeOf (.ofBits 0x3FEFFFFFFFFFFFFF) = .finite ⟨2 ^ 53 - 1, -53, false⟩ := rfl
  have positive : isNegative (.ofBits 0x3FEFFFFFFFFFFFFF) = false := by decide
  rw [Layout.numeral?, size]
  simp only [Layout.finite, shortest, positive]
  decide +kernel

/-- The double right below one is written with sixteen digits, which are rounded up to the power of
ten that they are then divided by. -/
theorem one_for_less : let value := Float.ofBits 0x3FEFFFFFFFFFFFFF
    value.isFinite = true ∧ value < 1.0 ∧
      (Json.read? (Value.ofFloat value).toText).bind Value.float? = some 1.0 := by
  intro value
  have scaled : scaleDown (ofWord 9999999999999999) 16 = 1.0 := by
    rw [scaleDown]
    decide +kernel
  have size : sizeOf? ⟨false, ['0'], List.replicate 16 '9', none⟩ =
      some (scaleDown (ofWord 9999999999999999) 16) := rfl
  refine ⟨by decide +kernel, by decide +kernel, ?_⟩
  rw [read?_toText (writable_ofFloat _)]
  have written : layout.numeral? value = _ := numeral?_nines
  simp [-List.reduceReplicate, Value.ofFloat, written, Value.float?, scalar?, Json.number?, size,
    scaled, Number.toFloat, Scalar.toFloat?]

end Reckoner
