import Reckoner.Proofs.Counting.Product

/-!
Whole numbers that leave the signed word. The guards keep every difference, sum and range of a count
inside it, but for one: the factors of a permutation start behind the things that are left out, and
where these are all the things that a word can number, the start is one too many.
-/

namespace Reckoner.Counting

theorem fitsSigned_iff {value : Int} :
    Word64.fitsSigned value = true ↔ Word64.least ≤ value ∧ value ≤ Word64.greatest := by
  rw [Word64.fitsSigned, Bool.and_eq_true, decide_eq_true_eq, decide_eq_true_eq]

theorem fitsSigned_of_le {value bound : Int} (positive : 0 ≤ value) (below : value ≤ bound)
    (fits : Word64.fitsSigned bound = true) : Word64.fitsSigned value = true := by
  have low : Word64.least ≤ 0 := by decide
  have high := (fitsSigned_iff.mp fits).2
  exact fitsSigned_iff.mpr ⟨low.trans positive, below.trans high⟩

theorem outside_or_naturals (n k : Int) :
    (decide (k < 0) || decide (n < k)) = true ∨ ∃ n' k' : ℕ, n = n' ∧ k = k' ∧ k' ≤ n' := by
  by_cases outside : k < 0 ∨ n < k
  · left
    simpa using outside
  · right
    exact ⟨n.toNat, k.toNat, by omega, by omega, by omega⟩

theorem factorial_isOk {n : Int} (positive : 0 ≤ n) : ∃ value, factorial n = .ok value := by
  obtain ⟨n, rfl⟩ := Int.eq_ofNat_of_zero_le positive
  rcases Nat.lt_or_ge 170 n with many | few
  · exact ⟨_, factorial_shortcut many⟩
  · exact ⟨_, factorial_eq few⟩

theorem combination_isOk {n : Int} (fits : n ≤ Word64.greatest) (k : Int) :
    ∃ value, combination n k = .ok value := by
  rcases outside_or_naturals n k with outside | ⟨n, k, rfl, rfl, within⟩
  · exact ⟨_, by rw [combination, if_pos outside]⟩
  · exact ⟨_, combination_eq fits within⟩

theorem permutation_isOk {n k : Int} (fits : n ≤ Word64.greatest)
    (room : ¬(n = Word64.greatest ∧ k = 0)) : ∃ value, permutation n k = .ok value := by
  rcases outside_or_naturals n k with outside | ⟨n, k, rfl, rfl, within⟩
  · exact ⟨_, by rw [permutation, if_pos outside]⟩
  · rcases Nat.lt_or_ge 170 k with many | few
    · exact ⟨_, permutation_shortcut within many⟩
    · exact ⟨_, permutation_eq within fits few (by omega)⟩

theorem permutation_leaves_word : permutation Word64.greatest 0 = .error .overflow := by
  decide

/-- How the counts of `k` among `n` things keep to a signed word. -/
structure Bounded (n k : Int) : Prop where
  factorial_ok : 0 ≤ n → ∃ value, factorial n = .ok value
  factorial_negative : n < 0 → factorial n = .error (.negativeFactorial n)
  factors : n ≤ maxFactorial → ∀ i < (n - 1).toNat, Word64.fitsSigned (2 + i) = true
  combination_ok : ∃ value, combination n k = .ok value
  difference : 0 ≤ k → k ≤ n → Word64.fitsSigned (n - k) = true
  quotients : 0 ≤ k → k ≤ n → ∀ i < (min k (n - k)).toNat,
    Word64.fitsSigned (n - i) = true ∧ Word64.fitsSigned (i + 1) = true
  permutation_ok : ¬(n = Word64.greatest ∧ k = 0) → ∃ value, permutation n k = .ok value
  permutation_overflow_iff : permutation n k = .error .overflow ↔ n = Word64.greatest ∧ k = 0
  first_iff : 0 ≤ k → k ≤ n →
    (Word64.fitsSigned (n - k + 1) = true ↔ ¬(n = Word64.greatest ∧ k = 0))
  range : 0 ≤ k → k ≤ n → ∀ i < k.toNat, Word64.fitsSigned (n - k + 1 + i) = true

/-- No count of numbers of a signed word leaves the word, except that of the ways to arrange nothing
out of the greatest number of things. -/
theorem counts_in_word {n k : Int} (fits : Word64.fitsSigned n = true)
    (fits' : Word64.fitsSigned k = true) : Bounded n k := by
  have high : n ≤ Word64.greatest := (fitsSigned_iff.mp fits).2
  constructor
  case factorial_ok => exact factorial_isOk
  case factorial_negative =>
    intro negative
    rw [factorial, if_pos negative]
  case factors =>
    intro few i less
    exact fitsSigned_of_le (by omega) (by omega : (2 + i : Int) ≤ n) fits
  case combination_ok => exact combination_isOk high k
  case difference =>
    intro positive within
    exact fitsSigned_of_le (by omega) (by omega : n - k ≤ n) fits
  case quotients =>
    intro positive within i less
    exact ⟨fitsSigned_of_le (by omega) (by omega) fits,
      fitsSigned_of_le (by omega) (by omega) fits'⟩
  case permutation_ok => exact permutation_isOk high
  case permutation_overflow_iff =>
    constructor
    · intro overflow
      by_contra room
      obtain ⟨value, counted⟩ := permutation_isOk high room
      rw [counted] at overflow
      contradiction
    · rintro ⟨rfl, rfl⟩
      decide
  case first_iff =>
    intro positive within
    have low : Word64.least ≤ 0 := by decide
    rw [fitsSigned_iff]
    omega
  case range =>
    intro positive within i less
    exact fitsSigned_of_le (by omega) (by omega : n - k + 1 + i ≤ n) fits

theorem counts_in_word_greatest :
    (∃ value, permutation Word64.greatest 1 = .ok value) ∧
      ∃ value, combination Word64.greatest 4611686018427387903 = .ok value :=
  ⟨(counts_in_word (k := 1) (by decide) (by decide)).permutation_ok (by decide),
    (counts_in_word (by decide) (by decide)).combination_ok⟩

end Reckoner.Counting
