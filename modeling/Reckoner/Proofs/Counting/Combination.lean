import Mathlib.Data.Nat.Choose.Central
import Reckoner.Counting
import Reckoner.Proofs.Decimal.Drift

/-!
Combinations by partial products. Over exact numbers the product after each divisor is a binomial
coefficient. In doubles it drifts from it by four roundings a step, and it is infinite if a product
was too large before its divisor. It reaches 1024 factors only as infinity.
-/

namespace Reckoner.Counting

open Reckoner.Decimal

theorem inWord_bind {Result : Type} {value : Int} (positive : 0 ≤ value)
    (fits : value ≤ Word64.greatest) (rest : Int → Except Failure Result) :
    inWord value >>= rest = rest value := by
  have low : Word64.least ≤ value := le_trans (by decide) positive
  simp [inWord, Word64.fitsSigned, low, fits, bind, Except.bind]

theorem nears_toFloat (word : Nat) (positive : 0 < word) (fits : (word : Int) ≤ Word64.greatest) :
    Nears (toFloat word) word 1 := by
  have room : Word64.greatest < 2 ^ 64 := by decide
  exact nears_ofWord positive (by omega)

theorem not_outside {n k : Nat} (within : k ≤ n) :
    ¬(decide ((k : Int) < 0) || decide ((n : Int) < k)) = true := by
  simp only [Bool.or_eq_true, decide_eq_true_eq]
  omega

theorem steps_eq {n k : Nat} : (min (k : Int) (n - k)).toNat = min k (n - k) := by
  omega

theorem stands_one : Stands (toFloat 1) (1 : ℕ) :=
  stands_ofWord (by decide) (by decide)

/-- The product after so many factors, each divided by its place, over any kind of numbers. -/
def partialProduct {Number : Type} [Mul Number] [Div Number] (cast : Int → Number) (n : Int) :
    Nat → Number
  | 0 => cast 1
  | done + 1 => partialProduct cast n done * cast (n - done) / cast (done + 1)

theorem choose_quotient {n done : Nat} :
    (n.choose done : ℚ) * (n - done : ℕ) / (done + 1 : ℕ) = n.choose (done + 1) := by
  have nonzero : ((done + 1 : ℕ) : ℚ) ≠ 0 := Nat.cast_ne_zero.mpr (Nat.succ_ne_zero done)
  rw [div_eq_iff nonzero, ← Nat.cast_mul, ← Nat.cast_mul, Nat.choose_succ_right_eq]

theorem partialProduct_eq_choose {n done : Nat} (within : done ≤ n) :
    partialProduct (Int.cast : Int → ℚ) n done = n.choose done := by
  induction done with
  | zero => simp [partialProduct]
  | succ done step =>
    rw [partialProduct, step (by omega), ← choose_quotient, Nat.cast_sub (by omega)]
    push_cast
    rfl

theorem choose_mono {n few many : Nat} (fewer : few ≤ many) (half : 2 * many ≤ n) :
    n.choose few ≤ n.choose many := by
  induction many, fewer using Nat.le_induction with
  | base => exact Nat.le_refl _
  | succ many _ step =>
    exact (step (by omega)).trans (Nat.choose_le_succ_of_lt_half_left (by omega))

theorem choose_mul_mono {n few many : Nat} (fewer : few ≤ many) (half : 2 * many ≤ n) :
    n.choose few * few ≤ n.choose many * many :=
  Nat.mul_le_mul (choose_mono fewer half) fewer

theorem infinite_mul_div {word divisor : Nat} (positive : 0 < word)
    (fits : (word : Int) ≤ Word64.greatest) (positive' : 0 < divisor)
    (fits' : (divisor : Int) ≤ Word64.greatest) :
    infinity * toFloat word / toFloat divisor = infinity := by
  obtain ⟨_, stands, -⟩ := nears_toFloat word positive fits
  obtain ⟨_, stands', -⟩ := nears_toFloat divisor positive' fits'
  rw [infinity, stands.infinite_mul, stands'.infinite_div]

section
variable {n done left : Nat} (fits : (n : Int) ≤ Word64.greatest)

theorem partialProduct_succ (within : done < n) :
    partialProduct toFloat n (done + 1) =
      partialProduct toFloat n done * toFloat ((n - done : ℕ) : Int) /
        toFloat ((done + 1 : ℕ) : Int) := by
  rw [Int.ofNat_sub (by omega)]
  rfl

include fits

theorem partialProduct_infinite (within : done + left ≤ n)
    (infinite : partialProduct toFloat n done = infinity) :
    partialProduct toFloat n (done + left) = infinity := by
  induction left with
  | zero => exact infinite
  | succ left step =>
    rw [← Nat.add_assoc, partialProduct_succ (by omega), step (by omega)]
    exact infinite_mul_div (by omega) (by omega) (by omega) (by omega)

end

/-- Whether a partial product is infinite because a product was too large before its divisor, or
near to its exact value because none was. -/
def Follows (n done : Nat) : Prop :=
  (partialProduct toFloat n done = infinity ∧
      greatestFinite < (n.choose done * done : ℕ) * drift ^ (4 * done)) ∨
    Nears (partialProduct toFloat n done) (n.choose done) (4 * done) ∧
      (n.choose done * done : ℕ) ≤ greatestFinite * drift ^ (4 * done)

section
variable {n done : Nat}

theorem follows_zero : Follows n 0 := by
  right
  simpa [partialProduct] using stands_one.nears

theorem Follows.succ (follows : Follows n done) (fits : (n : Int) ≤ Word64.greatest)
    (half : 2 * (done + 1) ≤ n) (few : done < 1024) : Follows n (done + 1) := by
  have factor : Nears (toFloat ((n - done : ℕ) : Int)) (n - done : ℕ) 1 :=
    nears_toFloat _ (by omega) (by omega)
  have divisor : Nears (toFloat ((done + 1 : ℕ) : Int)) (done + 1 : ℕ) 1 :=
    nears_toFloat _ (by omega) (by omega)
  rw [Follows, partialProduct_succ (by omega)]
  rcases follows with ⟨infinite, large⟩ | ⟨near, -⟩
  · left
    have more : ((n.choose done * done : ℕ) : ℚ) ≤ (n.choose (done + 1) * (done + 1) : ℕ) :=
      Nat.cast_le.mpr (choose_mul_mono (Nat.le_succ done) half)
    rw [infinite]
    constructor
    · exact infinite_mul_div (by omega) (by omega) (by omega) (by omega)
    · exact large.trans_le (mul_le_mul more (drift_pow_mono (by omega)) (le_of_lt (drift_pow_pos _))
        (Nat.cast_nonneg _))
  · have product :
        (n.choose done : ℚ) * (n - done : ℕ) = (n.choose (done + 1) * (done + 1) : ℕ) := by
      rw [Nat.choose_succ_right_eq, Nat.cast_mul]
    have least : (1 : ℚ) ≤ (done + 1 : ℕ) := by exact_mod_cast Nat.succ_pos done
    have divisible : ((done + 1 : ℕ) : ℚ) ≤ n.choose done * (n - done : ℕ) := by
      rw [product]
      exact Nat.cast_le.mpr (Nat.le_mul_of_pos_left _ (Nat.choose_pos (by omega)))
    have result := near.mul_div factor divisor (by omega) least divisible
    rwa [choose_quotient, product] at result

theorem follows (fits : (n : Int) ≤ Word64.greatest) (half : 2 * done ≤ n) (few : done ≤ 1024) :
    Follows n done := by
  induction done with
  | zero => exact follows_zero
  | succ done step => exact (step (by omega) (by omega)).succ fits half few

theorem large_choose (half : 2048 ≤ n) : 2 ^ 1025 ≤ n.choose 1024 * 1024 := by
  have central : 4 ^ 1024 < 1024 * Nat.centralBinom 1024 :=
    Nat.four_pow_lt_mul_centralBinom 1024 (by decide)
  have more : Nat.centralBinom 1024 ≤ n.choose 1024 := Nat.choose_le_choose 1024 half
  calc 2 ^ 1025 ≤ 4 ^ 1024 := by decide +kernel
    _ ≤ 1024 * Nat.centralBinom 1024 := le_of_lt central
    _ ≤ n.choose 1024 * 1024 := by rw [Nat.mul_comm]; exact Nat.mul_le_mul_right 1024 more

theorem partialProduct_many (fits : (n : Int) ≤ Word64.greatest) (half : 2 * done ≤ n)
    (many : 1024 ≤ done) :
    partialProduct toFloat n done = infinity ∧
      (greatestFinite : ℚ) < (n.choose done * done : ℕ) := by
  have half' : 2 * 1024 ≤ n := by omega
  have exceeds : (greatestFinite : ℚ) * drift ^ (4 * 1024) < (n.choose 1024 * 1024 : ℕ) :=
    (greatestFinite_mul_lt (4 * 1024) (by decide)).trans_le (Nat.cast_le.mpr (large_choose half'))
  have infinite : partialProduct toFloat n 1024 = infinity := by
    rcases follows fits half' (Nat.le_refl _) with ⟨infinite, -⟩ | ⟨-, small⟩
    · exact infinite
    · exact absurd exceeds (not_lt_of_ge small)
  have more := choose_mul_mono many half
  obtain ⟨left, rfl⟩ := Nat.exists_eq_add_of_le many
  constructor
  · exact partialProduct_infinite fits (by omega) infinite
  · calc (greatestFinite : ℚ) ≤ greatestFinite * drift ^ (4 * 1024) :=
          le_mul_of_one_le_right (Nat.cast_nonneg _) (one_le_drift_pow _)
      _ < (n.choose 1024 * 1024 : ℕ) := exceeds
      _ ≤ (n.choose (1024 + left) * (1024 + left) : ℕ) := Nat.cast_le.mpr more

theorem partialProduct_cases (fits : (n : Int) ≤ Word64.greatest) (half : 2 * done ≤ n) :
    (partialProduct toFloat n done = infinity ∧
        (greatestFinite : ℚ) < (n.choose done * done : ℕ) * (1 + 1 / 2 ^ 40)) ∨
      (∃ number, Stands (partialProduct toFloat n done) number) ∧
        ((n.choose done * done : ℕ) : ℚ) ≤ greatestFinite * (1 + 1 / 2 ^ 40) := by
  rcases Nat.le_total done 1024 with few | many
  · have power : drift ^ (4 * done) ≤ 1 + 1 / 2 ^ 40 := drift_pow_le (by omega)
    rcases follows fits half few with
      ⟨infinite, large⟩ | ⟨⟨number, stands, -⟩, small⟩
    · left
      exact ⟨infinite, large.trans_le (mul_le_mul_of_nonneg_left power (Nat.cast_nonneg _))⟩
    · right
      exact ⟨⟨number, stands⟩, small.trans (mul_le_mul_of_nonneg_left power (Nat.cast_nonneg _))⟩
  · obtain ⟨infinite, large⟩ := partialProduct_many fits half many
    left
    exact ⟨infinite, large.trans_le (le_mul_of_one_le_right (Nat.cast_nonneg _) (by norm_num))⟩

end

section
variable {n done left : Nat} (fits : (n : Int) ≤ Word64.greatest)
include fits

theorem combinationFrom_succ (within : done < n) :
    combinationFrom n done (partialProduct toFloat n done) (left + 1) =
      if (partialProduct toFloat n (done + 1)).isInf then .ok infinity
      else combinationFrom n (done + 1 : ℕ) (partialProduct toFloat n (done + 1)) left := by
  rw [combinationFrom, inWord_bind (by omega) (by omega), inWord_bind (by omega) (by omega)]
  rfl

theorem combinationFrom_eq (half : 2 * (done + left) ≤ n) :
    combinationFrom n done (partialProduct toFloat n done) left =
      .ok (roundAway (partialProduct toFloat n (done + left))) := by
  induction left generalizing done with
  | zero => rfl
  | succ left step =>
    have half' : 2 * (done + 1) ≤ n := by omega
    have all : done + (left + 1) = done + 1 + left := by omega
    rw [combinationFrom_succ fits (by omega), all]
    rcases partialProduct_cases fits half' with ⟨infinite, -⟩ | ⟨⟨_, stands⟩, -⟩
    · rw [partialProduct_infinite fits (by omega) infinite, infinite]
      rfl
    · rw [stands.isInf, if_neg (by decide)]
      exact step (by omega)

end

theorem combination_eq {n k : Nat} (fits : (n : Int) ≤ Word64.greatest) (within : k ≤ n) :
    combination n k = .ok (roundAway (partialProduct toFloat n (min k (n - k)))) := by
  rw [combination, if_neg (not_outside within)]
  split
  · rename_i ends
    have none : min k (n - k) = 0 := by
      simp only [Bool.or_eq_true, decide_eq_true_eq] at ends
      omega
    have one : roundAway (toFloat 1) = 1.0 := by decide +kernel
    rw [none, partialProduct, one]
  · have half : 2 * (0 + min k (n - k)) ≤ n := by omega
    have all := combinationFrom_eq fits half
    rw [Nat.zero_add] at all
    rw [inWord_bind (by omega) (by omega), steps_eq]
    exact all

theorem product_mono {n done steps : Nat} (within : done < steps) (half : 2 * steps ≤ n) :
    n.choose done * (n - done) ≤ n.choose steps * steps := by
  rw [← Nat.choose_succ_right_eq]
  exact choose_mul_mono within half

section
variable {n k steps : Nat} (fits : (n : Int) ≤ Word64.greatest) (within : k ≤ n)
  (shorter : min k (n - k) = steps)
include fits within shorter

theorem combination_infinite
    (large : greatestFinite * (2 ^ 40 + 1) < n.choose steps * steps * 2 ^ 40) :
    combination n k = .ok infinity := by
  rw [combination_eq fits within, shorter]
  have half : 2 * steps ≤ n := by omega
  rcases partialProduct_cases fits half with ⟨infinite, -⟩ | ⟨-, small⟩
  · rw [infinite]
    rfl
  · have cast : (greatestFinite : ℚ) * (2 ^ 40 + 1) < (n.choose steps * steps : ℕ) * 2 ^ 40 := by
      exact_mod_cast large
    linarith

theorem combination_finite
    (small : n.choose steps * steps * (2 ^ 40 + 1) ≤ greatestFinite * 2 ^ 40) :
    ∃ value, combination n k = .ok value ∧ value.isFinite = true := by
  refine ⟨_, combination_eq fits within, ?_⟩
  rw [shorter]
  have half : 2 * steps ≤ n := by omega
  rcases partialProduct_cases fits half with ⟨-, large⟩ | ⟨⟨_, stands⟩, -⟩
  · have cast : ((n.choose steps * steps : ℕ) : ℚ) * (2 ^ 40 + 1) ≤ greatestFinite * 2 ^ 40 := by
      exact_mod_cast small
    linarith
  · exact stands.isFinite_roundAway

end

/-- A combination is infinite exactly if one of its products before a divisor is too large for a
double, but for one part in `2 ^ 40`. -/
theorem combination_overflows {n k : Int} (positive : 0 ≤ k) (within : k ≤ n)
    (fits : n ≤ Word64.greatest) :
    ((∀ i < (min k (n - k)).toNat,
        n.toNat.choose i * (n.toNat - i) * (2 ^ 40 + 1) ≤ greatestFinite * 2 ^ 40) →
      ∃ value, combination n k = .ok value ∧ value.isFinite = true) ∧
    ((∃ i < (min k (n - k)).toNat,
        greatestFinite * (2 ^ 40 + 1) < n.toNat.choose i * (n.toNat - i) * 2 ^ 40) →
      combination n k = .ok infinity) := by
  obtain ⟨k, rfl⟩ := Int.eq_ofNat_of_zero_le positive
  obtain ⟨n, rfl⟩ := Int.eq_ofNat_of_zero_le (positive.trans within)
  have within' : k ≤ n := by omega
  have half : 2 * min k (n - k) ≤ n := by omega
  rw [steps_eq, Int.toNat_natCast]
  constructor
  · intro room
    apply combination_finite fits within' rfl
    cases shorter : min k (n - k) with
    | zero => simp
    | succ last =>
      rw [Nat.choose_succ_right_eq]
      exact room last (by omega)
  · rintro ⟨i, less, exceeds⟩
    apply combination_infinite fits within' rfl
    exact exceeds.trans_le (Nat.mul_le_mul_right _ (product_mono less half))

theorem combination_overflows_thousand :
    ∃ value, combination 1000 500 = .ok value ∧ value.isFinite = true := by
  apply (combination_overflows (n := 1000) (k := 500) (by decide) (by decide) (by decide)).1
  intro i less
  calc Nat.choose 1000 i * (1000 - i) * (2 ^ 40 + 1)
      ≤ Nat.choose 1000 500 * 500 * (2 ^ 40 + 1) :=
        Nat.mul_le_mul_right _ (product_mono less (by decide))
    _ ≤ greatestFinite * 2 ^ 40 := by
        rw [Nat.choose_eq_descFactorial_div_factorial]
        decide +kernel

/-- There are not too many choices of 510 from 1021 for a double, but a product before its divisor
is too large, and the result is infinite. -/
theorem combination_infinite_early :
    Nat.choose 1021 510 ≤ greatestFinite ∧ greatestFinite < Nat.choose 1021 509 * (1021 - 509) ∧
      combination 1021 510 = .ok infinity := by
  refine ⟨?_, ?_, combination_infinite (n := 1021) (k := 510) (by decide) (by decide) rfl ?_⟩
  all_goals
    -- Evaluated by its recursion, a binomial coefficient of this size does not end.
    simp only [Nat.choose_eq_descFactorial_div_factorial]
    decide +kernel

end Reckoner.Counting
