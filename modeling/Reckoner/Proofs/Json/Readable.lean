import Reckoner.Proofs.Decimal.Rounding
import Reckoner.Proofs.Decimal.Writing

/-!
Every double in a record is read as a number, though not always as the same one. Each step in which
the reader rounds may take it up, but only the three largest doubles are so near to what is infinite
that the steps together could matter, and for these they do not.
-/

namespace Reckoner.Json

open Reckoner.Decimal

theorem fits_of_lt {value : Nat} (small : value < 2 ^ 64) : Word64.fits value = true :=
  decide_eq_true small

theorem digitsValue_single (start : Nat) (digit : Char) :
    digitsValue start [digit] = start * 10 + (digit.toNat - 48) := by
  simp only [digitsValue, List.foldl_cons, List.foldl_nil]

theorem digitsValue_cons (start : Nat) (digit : Char) (rest : List Char) :
    digitsValue start (digit :: rest) = digitsValue (digitsValue start [digit]) rest := by
  simp only [digitsValue, List.foldl_cons, List.foldl_nil]

theorem le_digitsValue (start : Nat) (digits : List Char) :
    start * 10 ^ digits.length ≤ digitsValue start digits := by
  induction digits generalizing start with
  | nil => simp [digitsValue]
  | cons digit rest ih =>
      rw [digitsValue_cons]
      calc start * 10 ^ (rest.length + 1) = start * 10 * 10 ^ rest.length := by ring
        _ ≤ digitsValue start [digit] * 10 ^ rest.length :=
            Nat.mul_le_mul_right _ (digitsValue_single start digit ▸ Nat.le_add_right _ _)
        _ ≤ _ := ih _

theorem digitsValue_lt (start : Nat) {digits : List Char}
    (decimal : ∀ c ∈ digits, isDecimalDigit c = true) :
    digitsValue start digits < (start + 1) * 10 ^ digits.length := by
  induction digits generalizing start with
  | nil => simp [digitsValue]
  | cons digit rest ih =>
      have single : digitsValue start [digit] + 1 ≤ (start + 1) * 10 := by
        have small : digit.toNat - 48 ≤ 9 := by
          have bounds := decimal digit List.mem_cons_self
          simp only [isDecimalDigit, Bool.and_eq_true, decide_eq_true_eq] at bounds
          have last : digit.toNat ≤ 57 := bounds.2
          omega
        rw [digitsValue_single]
        omega
      rw [digitsValue_cons]
      calc digitsValue (digitsValue start [digit]) rest
          < (digitsValue start [digit] + 1) * 10 ^ rest.length :=
            ih _ fun c inside => decimal c (List.mem_cons_of_mem _ inside)
        _ ≤ (start + 1) * 10 * 10 ^ rest.length := Nat.mul_le_mul_right _ single
        _ = (start + 1) * 10 ^ (rest.length + 1) := by ring

theorem gatherPart_spec {start : Nat} (fits : Word64.fits start = true) (part : List Char) :
    (gatherPart start part).2 ≤ part.length ∧ start ≤ (gatherPart start part).1 ∧
      Word64.fits (gatherPart start part).1 = true ∧
      (gatherPart start part).1 * 10 ^ (part.length - (gatherPart start part).2) ≤
        digitsValue start part := by
  induction part generalizing start with
  | nil => exact ⟨Nat.le_refl _, Nat.le_refl _, fits, by simp [gatherPart, digitsValue]⟩
  | cons digit rest ih =>
      unfold gatherPart
      extract_lets next
      by_cases room : Word64.fits next = true
      · obtain ⟨used, more, fitting, value⟩ := ih room
        have grown : start ≤ next := by
          simp only [next, digitsValue_single]
          omega
        rw [if_pos room]
        refine ⟨Nat.succ_le_succ used, Nat.le_trans grown more, fitting, ?_⟩
        rw [digitsValue_cons, List.length_cons, Nat.add_sub_add_right]
        exact value
      · rw [if_neg room]
        exact ⟨Nat.zero_le _, Nat.le_refl _, fits, le_digitsValue _ _⟩

theorem fits_of_digitsValue {start : Nat} {digits : List Char}
    (fits : Word64.fits (digitsValue start digits) = true) : Word64.fits start = true := by
  have grown := le_digitsValue start digits
  have scaled := Nat.le_mul_of_pos_right start (Nat.pow_pos (by decide) : 0 < 10 ^ digits.length)
  simp only [Word64.fits, decide_eq_true_eq] at fits ⊢
  omega

theorem gatherWhole_eq {start : Nat} {whole : List Char}
    (fits : Word64.fits (digitsValue start whole) = true) :
    gatherWhole start whole = (digitsValue start whole, 0) := by
  induction whole generalizing start with
  | nil => rfl
  | cons digit rest ih =>
      rw [digitsValue_cons] at fits ⊢
      unfold gatherWhole
      rw [if_pos (fits_of_digitsValue fits)]
      exact ih fits

theorem lt_of_positional {lead : Int} (near : layout.positional lead = true) : lead < 16 := by
  simp only [layout, Bool.and_eq_true, decide_eq_true_eq] at near
  exact near.2

theorem trailing_ne_nil : layout.trailing ≠ [] :=
  List.cons_ne_nil _ _

theorem scale?_of_neg (word : Nat) {exponent : Int} (negative : exponent < 0) :
    (scale? word exponent).isSome = true := by
  simp [scale?, negative]

theorem sizeOf?_positional {numeral : Numeral} (proper : isProper numeral = true)
    (short : numeral.whole.length ≤ 16) (pointed : numeral.part ≠ [])
    (bare : numeral.exponent = none) : (sizeOf? numeral).isSome = true := by
  obtain ⟨-, wholeDigits, partDigits⟩ := (isProper_iff numeral).mp proper
  obtain ⟨digit, rest, part⟩ := List.exists_cons_of_ne_nil pointed
  have small : digitsValue 0 numeral.whole < 10 ^ 16 := by
    have less := digitsValue_lt 0 wholeDigits
    have power : 10 ^ numeral.whole.length ≤ 10 ^ 16 := Nat.pow_le_pow_right (by decide) short
    omega
  have gathered : gatherWhole 0 numeral.whole = (digitsValue 0 numeral.whole, 0) := by
    apply gatherWhole_eq
    exact fits_of_lt (by omega)
  have room : Word64.fits (digitsValue (digitsValue 0 numeral.whole) [digit]) = true := by
    have digit : ∀ c ∈ [digit], isDecimalDigit c = true := by
      simpa using partDigits digit (by simp [part])
    have one := digitsValue_lt (digitsValue 0 numeral.whole) digit
    rw [List.length_singleton] at one
    exact fits_of_lt (by omega)
  unfold sizeOf?
  rw [gathered, part, bare]
  simp only [gatherPart, room, if_true]
  apply scale?_of_neg
  omega

theorem scaleUp?_isSome {word exponent : Nat} (positive : 0 < word)
    (fits : Word64.fits word = true) (small : exponent ≤ 308)
    (inside : (word : ℚ) * 10 ^ exponent * (1 + 1 / 2 ^ 53) ^ 3 < 2 ^ 1024) :
    (scaleUp? (ofWord word) exponent).isSome = true := by
  have limit : word < 2 ^ 64 := of_decide_eq_true fits
  have bounds : (word : ℚ) * (1 + 1 / 2 ^ 53) * (10 ^ exponent * (1 + 1 / 2 ^ 53)) *
      (1 + 1 / 2 ^ 53) < 2 ^ 1024 := lt_of_eq_of_lt (by ring) inside
  have finite := (within_mul (within_ofWord positive limit) (within_powerOfTen small) bounds).isInf
  have scaled : (ofWord word * powerOfTen exponent).isInf = false := finite
  simp [scaleUp?, powerLimit, small, scaled]

theorem power_le_of_inside {lead : Int} {size : ℚ} (high : (10 : ℚ) ^ lead ≤ size)
    (inside : size * (1 + 1 / 2 ^ 53) ^ 3 < 2 ^ 1024) : lead ≤ 308 := by
  have most : (10 : ℚ) ^ lead < 10 ^ (309 : Int) := by
    have top : 2 ^ 1024 < 10 ^ 309 := by decide +kernel
    have nonnegative : 0 ≤ size := le_trans (by positivity) high
    calc (10 : ℚ) ^ lead ≤ size := high
      _ ≤ size * (1 + 1 / 2 ^ 53) ^ 3 := le_mul_of_one_le_right nonnegative (by norm_num)
      _ < 2 ^ 1024 := inside
      _ < 10 ^ (309 : Int) := by exact_mod_cast top
  have less := (zpow_lt_zpow_iff_right₀ (by norm_num)).mp most
  omega

section
variable {numeral : Numeral} {first : Char} {lead : Int}

theorem digitsValue_first (digit : isDecimalDigit first = true) (nonzero : first ≠ '0') :
    0 < digitsValue 0 [first] ∧ digitsValue 0 [first] < 10 := by
  have bounds := digit
  simp only [isDecimalDigit, Bool.and_eq_true, decide_eq_true_eq] at bounds
  have low : 48 ≤ first.toNat := bounds.1
  have high : first.toNat ≤ 57 := bounds.2
  have other : first.toNat ≠ 48 := fun same => nonzero (Char.toNat_inj.mp same)
  rw [digitsValue_single]
  omega

theorem size_of_first (whole : numeral.whole = [first]) (exponent : numeral.exponent = some lead) :
    numeral.size = digitsValue (digitsValue 0 [first]) numeral.part *
      (10 : ℚ) ^ (lead - numeral.part.length) := by
  rw [Numeral.size, whole, exponent, Option.getD_some, List.singleton_append, digitsValue_cons]

theorem power_le_size (whole : numeral.whole = [first]) (exponent : numeral.exponent = some lead)
    (positive : 0 < digitsValue 0 [first]) : (10 : ℚ) ^ lead ≤ numeral.size := by
  have power : 10 ^ numeral.part.length ≤ digitsValue (digitsValue 0 [first]) numeral.part :=
    le_trans (Nat.le_mul_of_pos_left _ positive) (le_digitsValue _ _)
  have cast : (10 : ℚ) ^ numeral.part.length ≤
      digitsValue (digitsValue 0 [first]) numeral.part := by exact_mod_cast power
  calc (10 : ℚ) ^ lead = 10 ^ numeral.part.length * 10 ^ (lead - numeral.part.length) := by
        rw [← zpow_natCast, ← zpow_add₀ (by norm_num), add_sub_cancel]
    _ ≤ _ := mul_le_mul_of_nonneg_right cast (by positivity)
    _ = numeral.size := (size_of_first whole exponent).symm

theorem sizeOf?_scientific (whole : numeral.whole = [first])
    (digit : isDecimalDigit first = true) (nonzero : first ≠ '0')
    (exponent : numeral.exponent = some lead)
    (inside : numeral.size * (1 + 1 / 2 ^ 53) ^ 3 < 2 ^ 1024) :
    (sizeOf? numeral).isSome = true := by
  obtain ⟨positive, small⟩ := digitsValue_first digit nonzero
  have fits : Word64.fits (digitsValue 0 [first]) = true := fits_of_lt (by omega)
  have gathered : gatherWhole 0 numeral.whole = (digitsValue 0 [first], 0) := by
    rw [whole]
    exact gatherWhole_eq fits
  have below := power_le_of_inside (power_le_size whole exponent positive) inside
  have size := size_of_first whole exponent
  obtain ⟨used, more, fitting, value⟩ := gatherPart_spec fits numeral.part
  unfold sizeOf?
  rw [gathered, exponent]
  dsimp only
  generalize gatherPart (digitsValue 0 [first]) numeral.part = behind at *
  obtain ⟨word, count⟩ := behind
  dsimp only at *
  split
  · unfold scale?
    split
    · rfl
    · have cast : (word : ℚ) * 10 ^ (numeral.part.length - count) ≤
          digitsValue (digitsValue 0 [first]) numeral.part := by exact_mod_cast value
      have power : (10 : ℚ) ^ ((0 : ℕ) - (count : Int) + lead).natAbs =
          10 ^ (numeral.part.length - count) * 10 ^ (lead - numeral.part.length) := by
        rw [← zpow_natCast, ← zpow_natCast, ← zpow_add₀ (by norm_num)]
        congr 1
        omega
      apply scaleUp?_isSome (by omega) fitting (by omega)
      refine lt_of_le_of_lt (mul_le_mul_of_nonneg_right ?_ (by positivity)) inside
      rw [power, size, ← mul_assoc]
      exact mul_le_mul_of_nonneg_right cast (by positivity)
  · rename_i large
    have notPositive : ¬0 < lead := by
      unfold writtenLimit at large
      omega
    simp [notPositive]

end

theorem positional_short (negative : Bool) {trailing digits : List Char} {exponent : Int}
    (trails : trailing ≠ []) (filled : digits ≠ []) (lead : (digits.length : Int) + exponent ≤ 16) :
    let numeral := Numeral.positional negative trailing digits exponent
    numeral.whole.length ≤ 16 ∧ numeral.part ≠ [] ∧ numeral.exponent = none := by
  have more := List.length_pos_iff.mpr filled
  unfold Numeral.positional
  extract_lets place numeral
  unfold numeral
  split
  · refine ⟨?_, trails, rfl⟩
    rw [List.length_append, zeros, List.length_replicate]
    omega
  · split
    · refine ⟨?_, ?_, rfl⟩
      · rw [List.length_take]
        omega
      · rw [Ne, List.drop_eq_nil_iff]
        omega
    · exact ⟨by simp, by simp [filled], rfl⟩

theorem shortest_top : ∀ less < 3, Binary.shortest .even ⟨2 ^ 53 - 1 - less, 971, false⟩ =
    ⟨17976931348623157 - 2 * less, 292⟩ := by
  have found : ∀ less < 3, (List.range' 1 17).findSome?
      (Binary.withDigits? .even ⟨2 ^ 53 - 1 - less, 971, false⟩) =
        some ⟨17976931348623157 - 2 * less, 292⟩ := by decide +kernel
  intro less small
  rw [Binary.shortest, found less small, Option.getD_some, Digits.strip]
  dsimp only
  rw [if_neg (by omega), if_neg (by omega)]

theorem sizeOf?_top : ∀ less < 3, ∀ negative,
    (sizeOf? (.scientific negative (digitList (17976931348623157 - 2 * less)) 292)).isSome =
      true := by
  decide +kernel

theorem finite_top {less : Nat} (small : less < 3) (negative : Bool) :
    layout.finite negative ⟨2 ^ 53 - 1 - less, 971, false⟩ =
      .scientific negative (digitList (17976931348623157 - 2 * less)) 292 := by
  have length : ∀ less < 3, (digitList (17976931348623157 - 2 * less)).length = 17 := by
    decide +kernel
  have far : layout.positional ((17 : ℕ) + 292 - 1) = false := by decide
  unfold Layout.finite
  extract_lets decimal digits
  have shortest : decimal = ⟨17976931348623157 - 2 * less, 292⟩ := shortest_top less small
  have count : digits.length = 17 := by
    unfold digits
    rw [shortest]
    exact length less small
  rw [count, shortest, far]
  unfold digits
  rw [shortest]
  rfl

theorem size_inside {binary : Binary} {number : ℚ} (canonical : binary.Canonical)
    (covers : binary.Covers number)
    (lower : binary.exponent = 971 → binary.significand + 4 ≤ 2 ^ 53) :
    number * (1 + 1 / 2 ^ 53) ^ 3 < 2 ^ 1024 := by
  have high := covers.high
  have small : (binary.significand : ℚ) + 1 ≤ 2 ^ 53 := by exact_mod_cast canonical.small
  have atTop : binary.exponent = 971 → (2 : ℚ) ^ binary.exponent = 2 ^ 971 := by
    rintro same
    rw [same]
    rfl
  have below : binary.exponent ≠ 971 → 2 * (2 : ℚ) ^ binary.exponent ≤ 2 ^ 971 := by
    intro other
    have most := canonical.most
    rw [← zpow_one_add₀ (by norm_num), ← zpow_natCast]
    exact zpow_le_zpow_right₀ (by norm_num) (by omega)
  have whole : (2 : ℚ) ^ 1024 = 2 ^ 53 * 2 ^ 971 := by rw [← pow_add]
  have positive : (0 : ℚ) < 2 ^ binary.exponent := by positivity
  have unit : (0 : ℚ) < 2 ^ 971 := by positivity
  rw [whole]
  generalize (2 : ℚ) ^ 971 = largest at *
  have bound : 4 * number ≤ (2 ^ 55 - 14) * largest := by
    by_cases top : binary.exponent = 971
    · have cast : (binary.significand : ℚ) + 4 ≤ 2 ^ 53 := by exact_mod_cast lower top
      rw [atTop top] at high
      exact le_trans high (mul_le_mul_of_nonneg_right (by linarith) (le_of_lt unit))
    · have half := below top
      have most : (4 * binary.significand + 2 : ℚ) * 2 ^ binary.exponent ≤
          (2 ^ 55 - 2) * 2 ^ binary.exponent :=
        mul_le_mul_of_nonneg_right (by linarith) (le_of_lt positive)
      linarith
  calc number * (1 + 1 / 2 ^ 53) ^ 3
      ≤ (2 ^ 53 - 7 / 2) * largest * (1 + 1 / 2 ^ 53) ^ 3 :=
        mul_le_mul_of_nonneg_right (by linarith) (by positivity)
    _ = (2 ^ 53 - 7 / 2) * (1 + 1 / 2 ^ 53) ^ 3 * largest := by ring
    _ < 2 ^ 53 * largest := mul_lt_mul_of_pos_right (by norm_num) unit

theorem exists_less {binary : Binary} (canonical : binary.Canonical)
    (top : binary.exponent = 971) (near : 2 ^ 53 < binary.significand + 4) :
    ∃ less < 3, binary = ⟨2 ^ 53 - 1 - less, 971, false⟩ := by
  have small := canonical.small
  have wide : binary.narrow = false := by
    rw [Bool.eq_false_iff, Ne, canonical.narrow]
    omega
  obtain ⟨significand, exponent, narrow⟩ := binary
  dsimp only at top near small wide
  subst top wide
  exact ⟨2 ^ 53 - 1 - significand, by omega, by congr; omega⟩

theorem sizeOf?_finite {binary : Binary} (canonical : binary.Canonical) (negative : Bool)
    (proper : isProper (layout.finite negative binary) = true)
    (covers : binary.Covers (layout.finite negative binary).size) :
    (sizeOf? (layout.finite negative binary)).isSome = true := by
  by_cases top : binary.exponent = 971 ∧ 2 ^ 53 < binary.significand + 4
  · obtain ⟨less, small, same⟩ := exists_less canonical top.1 top.2
    rw [same, finite_top small]
    exact sizeOf?_top less small negative
  · have inside := size_inside canonical covers (by omega)
    have significant := significant_digitList (shortest_pos canonical.positive layout.tie)
    revert proper inside
    unfold Layout.finite
    extract_lets decimal digits
    split
    · rename_i near
      intro proper _
      have lead : (digits.length : Int) + decimal.exponent ≤ 16 := by
        have less := lt_of_positional near
        omega
      obtain ⟨short, pointed, bare⟩ :=
        positional_short negative trailing_ne_nil significant.filled lead
      exact sizeOf?_positional proper short pointed bare
    · intro _ inside
      obtain ⟨first, rest, split⟩ := List.exists_cons_of_ne_nil significant.filled
      have nonzero : first ≠ '0' := by simpa [split] using significant.unpadded
      have digit : isDecimalDigit first = true := significant.digit first (by simp [split])
      have whole : (Numeral.scientific negative digits decimal.exponent).whole = [first] := by
        change digits.take 1 = [first]
        unfold digits decimal
        rw [split]
        rfl
      exact sizeOf?_scientific whole digit nonzero rfl inside

/-- Every double in a record is read as some double. -/
theorem float?_isSome (value : Float) : (Value.ofFloat value).float?.isSome = true := by
  cases size : Decimal.sizeOf value with
  | finite binary =>
      have written : layout.numeral? value = some (layout.finite (isNegative value) binary) := by
        rw [Layout.numeral?, size]
      have covers : binary.Covers (layout.finite (isNegative value) binary).size := by
        rw [size_finite]
        exact covers_shortest (significand_pos size) layout.tie
      have number : (number? (layout.finite (isNegative value) binary)).isSome = true := by
        unfold number?
        extract_lets whole isWhole
        split
        · rfl
        · split
          · rfl
          · rw [Option.isSome_map]
            exact sizeOf?_finite (canonical_of_sizeOfBits size) _ (isProper_numeral? written) covers
      obtain ⟨number, read⟩ := Option.isSome_iff_exists.mp number
      simp [Value.ofFloat, written, Value.float?, scalar?, read, Scalar.toFloat?]
  | _ =>
      have other : ∀ binary, Decimal.sizeOf value = .finite binary → ReadsBack value := by
        intro binary finite
        rw [size] at finite
        contradiction
      rw [float?_ofFloat other]
      rfl

end Reckoner.Json
