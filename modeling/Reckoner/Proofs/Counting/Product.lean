import Reckoner.Proofs.Counting.Combination

/-!
Factorials and permutations as products of neighbouring numbers. A product of so many of them is at
least a factorial, and from 171 factors on that is too large for a double.
-/

namespace Reckoner.Counting

open Reckoner.Decimal
open scoped Nat

theorem factorial_le_ascFactorial {first : Nat} (positive : 0 < first) (count : Nat) :
    count ! ≤ first.ascFactorial count := by
  obtain ⟨before, rfl⟩ := Nat.exists_eq_add_of_lt positive
  rw [Nat.zero_add, Nat.ascFactorial_eq_factorial_mul_choose]
  exact Nat.le_mul_of_pos_right _ (Nat.choose_pos (Nat.le_add_left count before))

theorem factorial_le_descFactorial {n k : Nat} (within : k ≤ n) : k ! ≤ n.descFactorial k := by
  rw [Nat.descFactorial_eq_factorial_mul_choose]
  exact Nat.le_mul_of_pos_right _ (Nat.choose_pos within)

theorem descFactorial_eq {n k : Nat} (within : k ≤ n) :
    n.descFactorial k = (n - k + 1).ascFactorial k := by
  rw [← Nat.add_descFactorial_eq_ascFactorial, Nat.sub_add_cancel within]

theorem factorial_bounds : 2 ^ 1025 ≤ 171 ! ∧ 170 ! * (2 ^ 40 + 1) ≤ greatestFinite * 2 ^ 40 := by
  decide +kernel

section
variable {first count left : Nat}

theorem risingProduct_zero : risingProduct first 0 = toFloat 1 :=
  rfl

theorem risingProduct_succ :
    risingProduct first (count + 1) =
      risingProduct first count * toFloat ((first + count : ℕ) : Int) := by
  rw [risingProduct, List.range_succ, List.foldl_append]
  rfl

theorem stands_risingProduct (positive : 0 < first)
    (small : first.ascFactorial count ≤ 2 ^ 53) :
    Stands (risingProduct first count) (first.ascFactorial count : ℕ) := by
  induction count with
  | zero =>
    rw [risingProduct_zero, Nat.ascFactorial_zero]
    exact stands_one
  | succ count step =>
    have before : 0 < first.ascFactorial count :=
      (Nat.factorial_pos count).trans_le (factorial_le_ascFactorial positive count)
    rw [Nat.ascFactorial_succ] at small ⊢
    have factor : Stands (toFloat ((first + count : ℕ) : Int)) (first + count : ℕ) :=
      stands_ofWord (by omega) ((Nat.le_mul_of_pos_right _ before).trans small)
    have product := (step ((Nat.le_mul_of_pos_left _ (by omega)).trans small)).mul factor
    rw [← Nat.cast_mul, Nat.mul_comm] at product
    rw [risingProduct_succ]
    exact product.stands (Nat.mul_pos (by omega) before) small

variable (positive : 0 < first)
include positive

theorem tracks_risingProduct (fits : first + count ≤ Word64.greatest + 1) (few : count ≤ 2048) :
    Tracks (risingProduct first count) (first.ascFactorial count : ℕ) (2 * count) := by
  induction count with
  | zero =>
    right
    rw [risingProduct_zero, Nat.ascFactorial_zero]
    exact stands_one.nears
  | succ count step =>
    have before : (1 : ℚ) ≤ (first.ascFactorial count : ℕ) := by
      exact_mod_cast (Nat.factorial_pos count).trans_le (factorial_le_ascFactorial positive count)
    have factor : (1 : ℚ) ≤ (first + count : ℕ) := by exact_mod_cast Nat.add_pos_left positive count
    have product := (step (by omega) (by omega)).mul
      (nears_toFloat (first + count) (by omega) (by omega)) (by omega) before factor
    rw [← Nat.cast_mul, Nat.mul_comm (first.ascFactorial count), ← Nat.ascFactorial_succ] at product
    rw [risingProduct_succ]
    exact product

theorem risingProduct_infinite (fits : first + (count + left) ≤ Word64.greatest + 1)
    (infinite : risingProduct first count = infinity) :
    risingProduct first (count + left) = infinity := by
  induction left with
  | zero => exact infinite
  | succ left step =>
    obtain ⟨_, stands, -⟩ := nears_toFloat (first + (count + left)) (by omega) (by omega)
    rw [← Nat.add_assoc, risingProduct_succ, step (by omega)]
    exact stands.infinite_mul

theorem risingProduct_large (fits : first + (count + left) ≤ Word64.greatest + 1)
    (few : count ≤ 2048) (large : 2 ^ 1025 ≤ first.ascFactorial count) :
    risingProduct first (count + left) = infinity := by
  apply risingProduct_infinite positive fits
  have fits' : first + count ≤ Word64.greatest + 1 := by omega
  rcases tracks_risingProduct positive fits' few with ⟨infinite, -⟩ | near
  · exact infinite
  · have exceeds := (greatestFinite_mul_lt (2 * count) (by omega)).trans_le
      (Nat.cast_le.mpr large)
    exact absurd near.le (not_le_of_gt exceeds)

end

section
variable {n k : Nat} (within : k ≤ n)
include within

theorem permutation_shortcut (many : 170 < k) : permutation n k = .ok infinity := by
  have full : maxFactorial < k := Int.ofNat_lt.mpr many
  rw [permutation, if_neg (not_outside within), if_pos full]

theorem permutation_eq (fits : (n : Int) ≤ Word64.greatest) (few : k ≤ 170)
    (room : ((n - k + 1 : ℕ) : Int) ≤ Word64.greatest) :
    permutation n k = .ok (risingProduct (n - k + 1 : ℕ) k) := by
  have room' : ¬maxFactorial < k := Int.not_lt.mpr (Int.ofNat_le.mpr few)
  rw [permutation, if_neg (not_outside within), if_neg room', inWord_bind (by omega) (by omega),
    inWord_bind (by omega) (by omega), ← Int.ofNat_sub within]
  rfl

theorem risingProduct_permutation (fits : (n : Int) ≤ Word64.greatest) (many : 170 < k) :
    risingProduct (n - k + 1 : ℕ) k = infinity := by
  obtain ⟨left, rfl⟩ := Nat.exists_eq_add_of_lt many
  rw [Nat.add_right_comm]
  apply risingProduct_large (Nat.succ_pos _) (by omega) (by decide)
  exact factorial_bounds.1.trans (factorial_le_ascFactorial (Nat.succ_pos _) 171)

end

theorem large_factorial {n : Nat} (many : 170 < n) : greatestFinite < n ! := by
  have least := factorial_bounds.1.trans (Nat.factorial_le many)
  have exceeds := (greatestFinite_mul_lt 0 (by decide)).trans_le (Nat.cast_le.mpr least)
  rw [pow_zero, mul_one] at exceeds
  exact_mod_cast exceeds

theorem small_factorial {n : Nat} (few : n ≤ 170) : n ! ≤ greatestFinite := by
  have bound := factorial_bounds.2
  have least := Nat.factorial_le few
  omega

theorem ascFactorial_two {n : Nat} : Nat.ascFactorial 2 (n - 1) = n ! := by
  cases n with
  | zero => rfl
  | succ before =>
    have product := Nat.factorial_mul_ascFactorial 1 before
    rwa [Nat.factorial_one, Nat.one_mul, Nat.add_comm 1 before] at product

theorem factorial_eq {n : Nat} (few : n ≤ 170) : factorial n = .ok (risingProduct 2 (n - 1)) := by
  have positive : ¬(n : Int) < 0 := by omega
  have room : ¬maxFactorial < n := Int.not_lt.mpr (Int.ofNat_le.mpr few)
  have factors : ((n : Int) - 1).toNat = n - 1 := by omega
  rw [factorial, if_neg positive, if_neg room, factors]

theorem factorial_shortcut {n : Nat} (many : 170 < n) : factorial n = .ok infinity := by
  have positive : ¬(n : Int) < 0 := by omega
  have full : maxFactorial < n := Int.ofNat_lt.mpr many
  rw [factorial, if_neg positive, if_pos full]

theorem risingProduct_factorial {n : Nat} (fits : (n : Int) ≤ Word64.greatest) (many : 170 < n) :
    risingProduct 2 (n - 1) = infinity := by
  obtain ⟨left, rfl⟩ := Nat.exists_eq_add_of_lt many
  have factors : 170 + left + 1 - 1 = 170 + left := by omega
  rw [factors]
  apply risingProduct_large Nat.zero_lt_two (by omega) (by decide)
  exact factorial_bounds.1.trans_eq (ascFactorial_two (n := 171)).symm

theorem nears_factorial {n : Nat} (few : n ≤ 170) :
    Nears (risingProduct 2 (n - 1)) (n ! : ℕ) (2 * (n - 1)) := by
  have room : 172 ≤ Word64.greatest := by decide
  have few' : n - 1 ≤ 2048 := by omega
  have rounds : 2 * (n - 1) ≤ 4096 := by omega
  have tracks := tracks_risingProduct Nat.zero_lt_two (by omega) few'
  rw [ascFactorial_two] at tracks
  rcases tracks with ⟨-, large⟩ | near
  · have least : (n ! : ℚ) ≤ 170 ! := Nat.cast_le.mpr (Nat.factorial_le few)
    have bound : ((170 ! : ℕ) : ℚ) * (2 ^ 40 + 1) ≤ greatestFinite * 2 ^ 40 := by
      exact_mod_cast factorial_bounds.2
    have most := mul_le_mul least (drift_pow_le rounds)
      (le_of_lt (drift_pow_pos _)) (Nat.cast_nonneg _)
    -- Without its name the factorial would be evaluated.
    generalize ((170 ! : ℕ) : ℚ) = greatest at bound most
    linarith
  · exact near

/-- The shortcuts to infinity change no result. They are taken for permutations only where the exact
product is too large for a double, and for factorials exactly where it is. -/
theorem shortcuts_agree {n : Int} (fits : n ≤ Word64.greatest) :
    (∀ k, maxFactorial < k → k ≤ n →
      k.toNat ! ≤ n.toNat.descFactorial k.toNat ∧
      greatestFinite < n.toNat.descFactorial k.toNat ∧
      permutation n k = .ok infinity ∧
      risingProduct (n - k + 1) k.toNat = infinity) ∧
    (0 ≤ n →
      (greatestFinite < n.toNat ! ↔ maxFactorial < n) ∧
      ∃ value, factorial n = .ok value ∧ risingProduct 2 (n - 1).toNat = value ∧
        (value = infinity ↔ maxFactorial < n) ∧ (value.isFinite = true ↔ n ≤ maxFactorial)) := by
  constructor
  · intro k many within
    obtain ⟨k, rfl⟩ := Int.eq_ofNat_of_zero_le (le_trans (by decide) (le_of_lt many))
    obtain ⟨n, rfl⟩ := Int.eq_ofNat_of_zero_le (le_trans (Int.natCast_nonneg k) within)
    have within' : k ≤ n := Int.ofNat_le.mp within
    have many' : 170 < k := Int.ofNat_lt.mp many
    have first : (n : Int) - k + 1 = (n - k + 1 : ℕ) := by omega
    rw [Int.toNat_natCast, Int.toNat_natCast, first]
    have least := factorial_le_descFactorial within'
    exact ⟨least, (large_factorial many').trans_le least, permutation_shortcut within' many',
      risingProduct_permutation within' fits many'⟩
  · intro positive
    obtain ⟨n, rfl⟩ := Int.eq_ofNat_of_zero_le positive
    have factors : ((n : Int) - 1).toNat = n - 1 := by omega
    rw [Int.toNat_natCast, factors]
    rcases Nat.lt_or_ge 170 n with many | few
    · have full : maxFactorial < n := Int.ofNat_lt.mpr many
      have infinite : infinity.isFinite = false := by decide +kernel
      exact ⟨iff_of_true (large_factorial many) full, infinity, factorial_shortcut many,
        risingProduct_factorial fits many, iff_of_true rfl full,
        iff_of_false (by rw [infinite]; decide) (Int.not_le.mpr full)⟩
    · have room : (n : Int) ≤ maxFactorial := Int.ofNat_le.mpr few
      obtain ⟨number, stands, -⟩ := nears_factorial few
      exact ⟨iff_of_false (Nat.not_lt.mpr (small_factorial few)) (Int.not_lt.mpr room), _,
        factorial_eq few, rfl, iff_of_false stands.ne_infinite (Int.not_lt.mpr room),
        iff_of_true stands.isFinite room⟩

theorem shortcuts_agree_bounds :
    permutation Word64.greatest 171 = .ok infinity ∧
      ∃ value, factorial 170 = .ok value ∧ value.isFinite = true := by
  constructor
  · exact ((shortcuts_agree (n := Word64.greatest) (by decide)).1 171 (by decide)
      (by decide)).2.2.1
  · obtain ⟨-, value, result, -, -, finite⟩ :=
      (shortcuts_agree (n := 170) (by decide)).2 (by decide)
    exact ⟨value, result, finite.mpr (by decide)⟩

end Reckoner.Counting
