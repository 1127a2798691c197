import Reckoner.Proofs.Decimal.Drift

/-!
Rounding errors of doubles of every size. Below the doubles of 53 digits the digits become fewer,
and a rounding changes a number not by a part of it but by half of the smallest double. The bounds
here allow for both, so that they hold of all doubles but the infinite ones. A sign changes nothing.
-/

namespace Reckoner.Decimal

open Float.Model (Format UnpackedFloat)
open Float.Model.UnpackedFloat

def smallestHalf : ℚ := 2 ^ (-1075 : Int)

theorem smallestHalf_pos : 0 < smallestHalf := by
  unfold smallestHalf
  positivity

theorem two_smallestHalf : 2 * smallestHalf = 2 ^ (-1074 : Int) := by
  rw [smallestHalf, ← zpow_one_add₀ (by norm_num)]
  norm_num

-- Its denominator has many digits.
attribute [irreducible] smallestHalf

/-- Whether two numbers are as near to one another as so many roundings leave them, each of which
changes a number by one part in `2 ^ 53` or by half of the smallest double. -/
structure Around (left right : ℚ) (rounds : Nat) : Prop where
  left_le : left ≤ (right + rounds * smallestHalf) * drift ^ rounds
  right_le : right ≤ (left + rounds * smallestHalf) * drift ^ rounds

namespace Around

variable {left middle right : ℚ} {rounds rounds' : Nat}

theorem symm (around : Around left right rounds) : Around right left rounds :=
  ⟨around.right_le, around.left_le⟩

theorem le_trans (first : left ≤ (middle + rounds * smallestHalf) * drift ^ rounds)
    (second : middle ≤ (right + rounds' * smallestHalf) * drift ^ rounds') :
    left ≤ (right + (rounds + rounds' : ℕ) * smallestHalf) * drift ^ (rounds + rounds') := by
  have half := smallestHalf_pos
  have power := drift_pow_pos rounds
  have grown : (rounds : ℚ) * smallestHalf ≤ rounds * smallestHalf * drift ^ rounds' :=
    le_mul_of_one_le_right (by positivity) (one_le_drift_pow rounds')
  calc left ≤ (middle + rounds * smallestHalf) * drift ^ rounds := first
    _ ≤ ((right + rounds' * smallestHalf) * drift ^ rounds' +
          rounds * smallestHalf * drift ^ rounds') * drift ^ rounds := by gcongr
    _ = (right + (rounds + rounds' : ℕ) * smallestHalf) * drift ^ (rounds + rounds') := by
        rw [pow_add]
        push_cast
        ring

theorem trans (around : Around left middle rounds) (next : Around middle right rounds') :
    Around left right (rounds + rounds') where
  left_le := le_trans around.left_le next.left_le
  right_le := Nat.add_comm rounds rounds' ▸ le_trans next.right_le around.right_le

theorem self {number : ℚ} (nonneg : 0 ≤ number) (rounds : Nat) : Around number number rounds := by
  have half := smallestHalf_pos
  have more : (0 : ℚ) ≤ rounds * smallestHalf := by positivity
  have grown : number ≤ (number + rounds * smallestHalf) * drift ^ rounds :=
    (le_add_of_nonneg_right more).trans
      (le_mul_of_one_le_right (by linarith) (one_le_drift_pow rounds))
  exact ⟨grown, grown⟩

theorem mono (around : Around left right rounds) (nonneg : 0 ≤ right) (fewer : rounds ≤ rounds') :
    Around left right rounds' :=
  Nat.add_sub_cancel' fewer ▸ around.trans (self nonneg (rounds' - rounds))

theorem div (around : Around left right rounds) {divisor : ℚ} (large : 1 ≤ divisor) :
    Around (left / divisor) (right / divisor) rounds := by
  have half := smallestHalf_pos
  have power := drift_pow_pos rounds
  have positive : 0 < divisor := by linarith
  have less : (rounds : ℚ) * smallestHalf / divisor ≤ rounds * smallestHalf :=
    div_le_self (by positivity) large
  constructor
  case left_le =>
    calc left / divisor ≤ (right + rounds * smallestHalf) * drift ^ rounds / divisor := by
          gcongr
          exact around.left_le
      _ = (right / divisor + rounds * smallestHalf / divisor) * drift ^ rounds := by ring
      _ ≤ _ := by gcongr
  case right_le =>
    calc right / divisor ≤ (left + rounds * smallestHalf) * drift ^ rounds / divisor := by
          gcongr
          exact around.right_le
      _ = (left / divisor + rounds * smallestHalf / divisor) * drift ^ rounds := by ring
      _ ≤ _ := by gcongr

theorem abs_sub_le (around : Around left right 6) (nonneg : 0 ≤ right) :
    |left - right| ≤ right / 2 ^ 50 + 8 * smallestHalf := by
  have half := smallestHalf_pos
  have power : drift ^ 6 ≤ 1 + 7 / 2 ^ 53 := by norm_num [drift]
  have unit := drift_pow_pos 6
  obtain ⟨left_le, right_le⟩ := around
  push_cast at left_le right_le
  have shifted : 0 ≤ left + 6 * smallestHalf := by
    apply le_of_mul_le_mul_right _ unit
    rw [zero_mul]
    exact nonneg.trans right_le
  have above : left ≤ (right + 6 * smallestHalf) * (1 + 7 / 2 ^ 53) :=
    left_le.trans (mul_le_mul_of_nonneg_left power (by linarith))
  have below : right ≤ (left + 6 * smallestHalf) * (1 + 7 / 2 ^ 53) :=
    right_le.trans (mul_le_mul_of_nonneg_left power shifted)
  rw [abs_sub_le_iff]
  constructor <;> linarith

end Around

theorem Close.around {left right : ℚ} {rounds : Nat} (close : Close left right rounds) :
    Around left right rounds := by
  have half := smallestHalf_pos
  have power := drift_pow_pos rounds
  have more : (0 : ℚ) ≤ rounds * smallestHalf := by positivity
  constructor
  case left_le => exact close.left_le.trans (by gcongr; linarith)
  case right_le => exact close.right_le.trans (by gcongr; linarith)

theorem Binary.Canonical.eq_ofParts {binary : Binary} (canonical : binary.Canonical) :
    binary = .ofParts binary.significand binary.exponent := by
  obtain ⟨significand, exponent, narrow⟩ := binary
  have same : narrow = decide (significand = 2 ^ 52 ∧ exponent ≠ -1074) := by
    rw [Bool.eq_iff_iff, decide_eq_true_iff]
    exact canonical.narrow
  rw [same]
  rfl

theorem Binary.Covers.around {binary : Binary} {number : ℚ} (covers : binary.Covers number)
    (canonical : binary.Canonical) :
    Around (binary.significand * 2 ^ binary.exponent) number 1 := by
  have half := smallestHalf_pos
  have value : (0 : ℚ) ≤ binary.significand * 2 ^ binary.exponent := by positivity
  have drift_eq : drift ^ 1 = 1 + 1 / 2 ^ 53 := pow_one drift
  have high := covers.high
  by_cases bottom : binary.exponent = -1074
  · have step : (2 : ℚ) ^ binary.exponent = 2 * smallestHalf := by rw [bottom, two_smallestHalf]
    have wide : binary.narrow = false := by
      rw [Bool.eq_false_iff, Ne, canonical.narrow]
      exact fun both => both.2 bottom
    have low := covers.low
    rw [wide] at low
    rw [step] at low high value ⊢
    simp only [Bool.false_eq_true, if_false] at low
    constructor <;> rw [drift_eq] <;> push_cast <;> linarith
  · have large := canonical.large bottom
    have digits : (2 ^ 52 : ℚ) ≤ binary.significand := by exact_mod_cast large
    have scaled : 2 ^ 52 * (2 : ℚ) ^ binary.exponent ≤ binary.significand * 2 ^ binary.exponent :=
      mul_le_mul_of_nonneg_right digits (by positivity)
    have below := covers_ofParts_le (canonical.eq_ofParts ▸ covers) large bottom
    constructor <;> rw [drift_eq] <;> push_cast <;> linarith

section
variable {value second : Float} {number number' : ℚ}

def Denotes (value : Float) (number : ℚ) : Prop :=
  ∃ significand exponent positive,
    value.toModel.unpack = .finite .positive significand exponent positive ∧
      number = significand * 2 ^ exponent

theorem Stands.denotes (stands : Stands value number) : Denotes value number := by
  obtain ⟨significand, exponent, positive, unpacked, -, -, -, same⟩ := stands
  exact ⟨significand, exponent, positive, unpacked, same⟩

theorem Denotes.pos (denotes : Denotes value number) : 0 < number := by
  obtain ⟨significand, exponent, positive, -, rfl⟩ := denotes
  positivity

theorem Denotes.beq_zero (denotes : Denotes value number) : (value == 0.0) = false := by
  obtain ⟨significand, exponent, positive, unpacked, -⟩ := denotes
  have zero : (0.0 : Float).toModel.unpack = .zero .positive := rfl
  change (value.toModel.unpack.compare (0.0 : Float).toModel.unpack == some .eq) = false
  rw [unpacked, zero]
  rfl

theorem Denotes.div (denotes : Denotes value number) (denotes' : Denotes second number') :
    Rounded (value / second) (number / number') := by
  obtain ⟨_, _, _, unpacked, rfl⟩ := denotes
  obtain ⟨_, _, _, unpacked', rfl⟩ := denotes'
  exact rounded_div unpacked unpacked'

theorem denotes_pack {whole : Nat} {target : Int} {positive : 0 < whole}
    (canonical : (Binary.ofParts whole target).Canonical) :
    Denotes (.ofModel (.pack (.finite .positive whole target positive))) (whole * 2 ^ target) :=
  ⟨_, _, _,
    unpack_pack positive canonical.small canonical.least canonical.large canonical.most, rfl⟩

theorem Rounded.covers (rounded : Rounded value number) {binary : Binary}
    (size : sizeOf value = .finite binary) : binary.Covers number := by
  obtain ⟨significand, exponent, accuracy, rfl, measures⟩ := rounded
  rcases measures.round with ⟨zero, -⟩ |
    ⟨whole, target, filled, finite, small, least, large, covers⟩
  · rw [zero] at size
    contradiction
  · rw [finite] at size
    by_cases most : target ≤ 971
    · rw [sizeOf_pack filled small least large most] at size
      cases size
      exact covers
    · rw [infinite_of_exponent (Int.not_le.mp most)] at size
      contradiction

theorem Rounded.around (rounded : Rounded value number) (positive : 0 < number)
    (high : number ≤ greatestFinite) :
    ∃ number', number? value = some number' ∧ Around number' number 1 ∧
      (2 ^ (-1074 : Int) < 2 * number → Denotes value number') := by
  have sign := rounded.isNegative
  obtain ⟨significand, exponent, accuracy, rfl, measures⟩ := rounded
  rcases measures.round with ⟨zero, tiny⟩ |
    ⟨whole, target, filled, finite, small, least, large, covers⟩
  · rw [zero]
    refine ⟨0, rfl, ?_, fun some => absurd some (not_lt_of_ge tiny)⟩
    have half := smallestHalf_pos
    have unit : 1 ≤ drift ^ 1 := one_le_drift_pow 1
    rw [← two_smallestHalf] at tiny
    constructor
    case left_le => positivity
    case right_le =>
      have grown : smallestHalf ≤ smallestHalf * drift ^ 1 := le_mul_of_one_le_right half.le unit
      push_cast
      linarith
  · have most : target ≤ 971 := by
      by_contra above
      have unit : (0 : ℚ) < 2 ^ (971 : Int) := by positivity
      have bound := covers.ge (large (by omega)) (by omega)
      rw [cast_greatestFinite] at high
      generalize (2 : ℚ) ^ (971 : Int) = unit' at *
      linarith
    have canonical : (Binary.ofParts whole target).Canonical :=
      ⟨filled, small, least, most, large, decide_eq_true_iff⟩
    rw [finite] at sign ⊢
    refine ⟨whole * 2 ^ target, ?_, covers.around canonical, fun _ => denotes_pack canonical⟩
    rw [number?, sizeOf_pack filled small least large most, sign]
    rfl

end

def Lands (value : Float) (exact : ℚ) (rounds : Nat) : Prop :=
  isNegative value = false ∧ ∃ number, number? value = some number ∧ Around number exact rounds

theorem Nears.lands {value : Float} {exact : ℚ} {rounds : Nat} (nears : Nears value exact rounds) :
    Lands value exact rounds := by
  obtain ⟨number, stands, close⟩ := nears
  obtain ⟨-, -, -, sign, -⟩ := stands.sizeOf_eq
  exact ⟨sign, number, stands.number?_eq, close.around⟩

theorem sizeOfBits_congr {bits bits' : Nat} (biased : bits / twoTo 52 % twoTo 11 =
      bits' / twoTo 52 % twoTo 11) (fraction : bits % twoTo 52 = bits' % twoTo 52) :
    sizeOfBits bits = sizeOfBits bits' := by
  unfold sizeOfBits
  rw [biased, fraction]

theorem neg_of_finite {value : Float} {binary : Binary} (size : sizeOf value = .finite binary) :
    sizeOf (-value) = .finite binary ∧ isNegative (-value) = !isNegative value := by
  have reads := reads_unpack value
  have opposite : -value = .ofModel (.pack value.toModel.unpack.neg) := rfl
  generalize value.toModel.unpack = unpacked at reads opposite
  cases reads with
  | notANumber size' => cases size.symm.trans size'
  | infinity sign size' => cases size.symm.trans size'
  | zero sign size' => cases size.symm.trans size'
  | finite sign whole target positive size' bit =>
      cases size.symm.trans size'
      have canonical := canonical_of_sizeOfBits size
      obtain ⟨exponent, mantissa, components⟩ := exists_components whole target positive
      have bits : (-value).toBits.toBitVec =
          packComponents Format.binary64 (-sign) exponent mantissa := by
        rw [opposite]
        exact components (-sign)
      have plain :
          (Float.ofModel (.pack (.finite .positive whole target positive))).toBits.toBitVec =
            packComponents Format.binary64 .positive exponent mantissa := components .positive
      obtain ⟨biased, fraction⟩ := fields_packComponents bits
      obtain ⟨biased', fraction'⟩ := fields_packComponents plain
      constructor
      · rw [sizeOf, sizeOfBits_congr (biased.trans biased'.symm) (fraction.trans fraction'.symm)]
        exact sizeOf_pack positive canonical.small canonical.least canonical.large canonical.most
      · rw [isNegative_packComponents bits, bit]
        cases sign <;> rfl

theorem neg_of_number? {value : Float} {number : ℚ} (found : number? value = some number) :
    sizeOf (-value) = sizeOf value ∧ isNegative (-value) = !isNegative value := by
  unfold number? at found
  split at found
  · rename_i zero
    rcases eq_zero zero with rfl | rfl
    · exact ⟨rfl, by decide⟩
    · exact ⟨rfl, by decide⟩
  · rename_i binary size
    obtain ⟨size', sign⟩ := neg_of_finite size
    exact ⟨size'.trans size.symm, sign⟩
  · contradiction
  · contradiction

theorem number?_neg {value : Float} {number : ℚ} (found : number? value = some number) :
    number? (-value) = some (-number) := by
  obtain ⟨size, sign⟩ := neg_of_number? found
  unfold number? at found ⊢
  rw [size, sign]
  split at found
  · cases found
    exact congrArg some neg_zero.symm
  · obtain rfl := Option.some.inj found
    cases isNegative value <;> simp
  · contradiction
  · contradiction

end Reckoner.Decimal
