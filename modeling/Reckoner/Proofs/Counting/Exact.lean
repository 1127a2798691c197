import Reckoner.Proofs.Counting.Product

/-!
Counts that are exact. As long as no product on the way has more than 53 digits, no operation on
doubles rounds, and the result is the count itself.
-/

namespace Reckoner.Counting

open Reckoner.Decimal
open scoped Nat

theorem choose_min {n k : Nat} (within : k ≤ n) : n.choose (min k (n - k)) = n.choose k := by
  rcases Nat.le_total k (n - k) with first | second
  · rw [Nat.min_eq_left first]
  · rw [Nat.min_eq_right second, Nat.choose_symm within]

theorem stands_partialProduct {n steps : Nat} (half : 2 * steps ≤ n)
    (small : ∀ i < steps, n.choose i * (n - i) ≤ 2 ^ 53) :
    Stands (partialProduct toFloat n steps) (n.choose steps : ℕ) := by
  induction steps with
  | zero => simpa [partialProduct] using stands_one
  | succ done step =>
    have before := step (by omega) fun i less => small i (Nat.lt_succ_of_lt less)
    have product := small done (Nat.lt_succ_self done)
    have positive : 0 < n.choose done := Nat.choose_pos (by omega)
    have word : n - done ≤ 2 ^ 53 := (Nat.le_mul_of_pos_left _ positive).trans product
    have factor : Stands (toFloat ((n - done : ℕ) : Int)) (n - done : ℕ) :=
      stands_ofWord (by omega) word
    have divisor : Stands (toFloat ((done + 1 : ℕ) : Int)) (done + 1 : ℕ) :=
      stands_ofWord (by omega) (by omega)
    have dividend : Stands (partialProduct toFloat n done * toFloat ((n - done : ℕ) : Int))
        (n.choose done * (n - done) : ℕ) := by
      have rounded := before.mul factor
      rw [← Nat.cast_mul] at rounded
      exact rounded.stands (Nat.mul_pos positive (by omega)) product
    have quotient : n.choose (done + 1) ≤ 2 ^ 53 := by
      rw [← Nat.choose_succ_right_eq] at product
      exact (Nat.le_mul_of_pos_right _ (Nat.succ_pos done)).trans product
    have rounded := dividend.div divisor
    rw [Nat.cast_mul, choose_quotient] at rounded
    rw [partialProduct_succ (by omega)]
    exact rounded.stands (Nat.choose_pos (by omega)) quotient

theorem permutation_exact {n k : Nat} (within : k ≤ n) (room : (n : Int) < Word64.greatest)
    (small : n.descFactorial k ≤ 2 ^ 53) :
    ∃ value, permutation n k = .ok value ∧ number? value = some (n.descFactorial k : ℚ) := by
  have few : k ≤ 170 := by
    by_contra many
    have large : 2 ^ 53 < 171 ! := by decide +kernel
    have least : 171 ! ≤ n.descFactorial k :=
      (Nat.factorial_le (Nat.not_le.mp many)).trans (factorial_le_descFactorial within)
    exact absurd small (Nat.not_le.mpr (large.trans_le least))
  rw [descFactorial_eq within] at small ⊢
  exact ⟨_, permutation_eq within (by omega) few (by omega),
    (stands_risingProduct (Nat.succ_pos _) small).number?_eq⟩

/-- How the counts of arrangements of `k` among `n` things come out. -/
structure Exact (n k : Int) : Prop where
  partials : ∀ i ≤ (min k (n - k)).toNat,
    partialProduct (Int.cast : Int → ℚ) n i = n.toNat.choose i
  grows : ∀ i < (min k (n - k)).toNat,
    partialProduct (Int.cast : Int → ℚ) n i ≤ partialProduct (Int.cast : Int → ℚ) n (i + 1)
  last : partialProduct (Int.cast : Int → ℚ) n (min k (n - k)).toNat = n.toNat.choose k.toNat
  loop : combination n k = .ok (roundAway (partialProduct toFloat n (min k (n - k)).toNat))
  choices : (∀ i < (min k (n - k)).toNat, n.toNat.choose i * (n.toNat - i) ≤ 2 ^ 53) →
    ∃ value, combination n k = .ok value ∧ number? value = some (n.toNat.choose k.toNat : ℚ)
  orders : n < Word64.greatest → n.toNat ! / (n - k).toNat ! ≤ 2 ^ 53 →
    ∃ value, permutation n k = .ok value ∧
      number? value = some ((n.toNat ! / (n - k).toNat ! : ℕ) : ℚ)
  symmetric : combination n k = combination n (n - k)

theorem counts_exact {n k : Int} (positive : 0 ≤ k) (within : k ≤ n) (fits : n ≤ Word64.greatest) :
    Exact n k := by
  obtain ⟨k, rfl⟩ := Int.eq_ofNat_of_zero_le positive
  obtain ⟨n, rfl⟩ := Int.eq_ofNat_of_zero_le (positive.trans within)
  have within' : k ≤ n := Int.ofNat_le.mp within
  have half : 2 * min k (n - k) ≤ n := by omega
  have rest : (n : Int) - k = (n - k : ℕ) := by omega
  have quotient : n ! / (n - k) ! = n.descFactorial k := (Nat.descFactorial_eq_div within').symm
  constructor
  case partials =>
    intro i less
    rw [steps_eq] at less
    exact partialProduct_eq_choose (by omega)
  case grows =>
    intro i less
    rw [steps_eq] at less
    rw [partialProduct_eq_choose (by omega), partialProduct_eq_choose (by omega)]
    exact Nat.cast_le.mpr (choose_mono (Nat.le_succ i) (by omega))
  case last =>
    rw [steps_eq, partialProduct_eq_choose (by omega), choose_min within']
    rfl
  case loop =>
    rw [steps_eq]
    exact combination_eq fits within'
  case choices =>
    intro small
    rw [steps_eq] at small
    have stands := (stands_partialProduct half small).roundAway
    rw [choose_min within'] at stands
    exact ⟨_, combination_eq fits within', stands.number?_eq⟩
  case orders =>
    intro room small
    rw [rest, Int.toNat_natCast, Int.toNat_natCast, quotient] at small ⊢
    exact permutation_exact within' room small
  case symmetric =>
    have steps : min k (n - k) = min (n - k) (n - (n - k)) := by omega
    rw [rest, combination_eq fits within', combination_eq fits (Nat.sub_le n k), steps]

theorem counts_exact_hands :
    (∃ value, combination 52 5 = .ok value ∧ number? value = some (2598960 : ℕ)) ∧
      ∃ value, permutation 52 5 = .ok value ∧ number? value = some (311875200 : ℕ) := by
  have exact : Exact 52 5 := counts_exact (by decide) (by decide) (by decide)
  have choices : Nat.choose 52 5 = 2598960 := by decide +kernel
  have orders : 52 ! / 47 ! = 311875200 := by decide +kernel
  constructor
  · rw [← choices]
    exact exact.choices (by decide +kernel)
  · rw [← orders]
    exact exact.orders (by decide) (by decide +kernel)

end Reckoner.Counting
