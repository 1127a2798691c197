import Reckoner.Proofs.Decimal.Interval
import Reckoner.Proofs.Json.Number

/-!
Theory of the texts of doubles. Whatever the layout, the numeral that a double is set out as has the
value of the double's shortest decimal, and a numeral is read back from its text. So no two doubles
have one text.
-/

namespace Reckoner.Decimal

open Json (comma_not_mem_text isProper isProper_iff isProper_numeral? readNumeral?
  readNumeral?_text endsValue_nil)

def Numeral.size (numeral : Numeral) : ℚ :=
  digitsValue 0 (numeral.whole ++ numeral.part) *
    (10 : ℚ) ^ (numeral.exponent.getD 0 - numeral.part.length)

theorem digitsValue_append_zeros (digits : List Char) (count : Nat) :
    digitsValue 0 (digits ++ zeros count) = digitsValue 0 digits * 10 ^ count := by
  simp only [digitsValue_eq_ofDigitChars, Nat.ofDigitChars_append, zeros,
    Nat.ofDigitChars_replicate_zero]
  ring

theorem trailing_eq_zeros (layout : Layout) : ∃ count, layout.trailing = zeros count := by
  unfold Layout.trailing
  split
  · exact ⟨1, rfl⟩
  · exact ⟨0, rfl⟩

theorem size_positional (negative : Bool) (count : Nat) (digits : List Char) (exponent : Int) :
    (Numeral.positional negative (zeros count) digits exponent).size =
      digitsValue 0 digits * 10 ^ exponent := by
  unfold Numeral.positional
  extract_lets lead
  split
  · rename_i nonnegative
    obtain ⟨more, rfl⟩ := Int.eq_ofNat_of_zero_le nonnegative
    have shift : ((more + count : ℕ) : Int) + (0 - (zeros count).length) = more := by
      rw [zeros, List.length_replicate]
      omega
    have all : zeros more ++ zeros count = zeros (more + count) := List.replicate_append_replicate
    simp only [Numeral.size, Option.getD_none, Int.toNat_natCast, List.append_assoc, all,
      digitsValue_append_zeros]
    rw [Nat.cast_mul, Nat.cast_pow, Nat.cast_ofNat, ← zpow_natCast, mul_assoc,
      ← zpow_add₀ (by norm_num), shift]
  · split
    · have places : (0 : Int) - (digits.drop lead.toNat).length = exponent := by
        rw [List.length_drop]
        omega
      simp only [Numeral.size, Option.getD_none, List.take_append_drop, places]
    · have places : (0 : Int) - (zeros (-lead).toNat ++ digits).length = exponent := by
        rw [List.length_append, zeros, List.length_replicate]
        omega
      have pad : ['0'] ++ (zeros (-lead).toNat ++ digits) = zeros ((-lead).toNat + 1) ++ digits :=
        rfl
      simp only [Numeral.size, Option.getD_none, places, pad, digitsValue_zeros]

theorem size_scientific (negative : Bool) {digits : List Char} (filled : digits ≠ [])
    (exponent : Int) :
    (Numeral.scientific negative digits exponent).size = digitsValue 0 digits * 10 ^ exponent := by
  have more := List.length_pos_iff.mpr filled
  have places : (digits.length : Int) + exponent - 1 - (digits.drop 1).length = exponent := by
    rw [List.length_drop]
    omega
  simp only [Numeral.size, Numeral.scientific, List.take_append_drop, Option.getD_some, places]

theorem size_finite (layout : Layout) (negative : Bool) (binary : Binary) :
    (layout.finite negative binary).size = (binary.shortest layout.tie).value := by
  obtain ⟨count, trailing⟩ := trailing_eq_zeros layout
  unfold Layout.finite
  extract_lets decimal digits
  have value : (digitsValue 0 digits : ℚ) = decimal.digits := by rw [digitsValue_digitList]
  rw [Digits.value, ← value]
  split
  · rw [trailing, size_positional]
  · rw [size_scientific _ (digitList_ne_nil _)]

theorem negative_finite (layout : Layout) (negative : Bool) (binary : Binary) :
    (layout.finite negative binary).negative = negative := by
  unfold Layout.finite
  extract_lets decimal digits
  split
  · unfold Numeral.positional
    extract_lets lead
    split_ifs <;> rfl
  · rfl

theorem size_zero (layout : Layout) (negative : Bool) :
    Numeral.size ⟨negative, ['0'], layout.trailing, none⟩ = 0 := by
  obtain ⟨count, trailing⟩ := trailing_eq_zeros layout
  have value : digitsValue 0 (['0'] ++ layout.trailing) = 0 := by
    rw [trailing, digitsValue_append_zeros]
    simp [digitsValue]
  simp only [Numeral.size, value, Nat.cast_zero, zero_mul]

theorem value_shortest_ne_zero {binary : Binary} (positive : 0 < binary.significand) (tie : Tie) :
    (binary.shortest tie).value ≠ 0 := by
  have digits : ((binary.shortest tie).digits : ℚ) ≠ 0 :=
    Nat.cast_ne_zero.mpr (Nat.ne_of_gt (shortest_pos positive tie))
  exact mul_ne_zero digits (by positivity)

theorem bits_of_zero {value : Float} (size : sizeOf value = .zero) :
    value.toBits.toNat % 2 ^ 63 = 0 := by
  have fields := sizeOfBits_cases value.toBits.toNat
  rw [show sizeOfBits value.toBits.toNat = .zero from size] at fields
  exact fields

section
variable {layout : Layout} {value other : Float} {numeral : Numeral}

theorem numeral?_cases (written : layout.numeral? value = some numeral) :
    numeral.negative = isNegative value ∧
      (sizeOf value = .zero ∧ numeral.size = 0 ∨
        ∃ binary, sizeOf value = .finite binary ∧ binary.Covers numeral.size ∧
          numeral.size ≠ 0) := by
  unfold Layout.numeral? at written
  split at written
  · rename_i size
    cases written
    exact ⟨rfl, Or.inl ⟨size, size_zero layout _⟩⟩
  · rename_i binary size
    cases written
    have positive := significand_pos size
    refine ⟨negative_finite layout _ binary, Or.inr ⟨binary, size, ?_⟩⟩
    rw [size_finite]
    exact ⟨covers_shortest positive layout.tie, value_shortest_ne_zero positive layout.tie⟩
  · contradiction

theorem numeral?_inj (written : layout.numeral? value = some numeral)
    (written' : layout.numeral? other = some numeral) : value = other := by
  obtain ⟨sign, kind⟩ := numeral?_cases written
  obtain ⟨sign', kind'⟩ := numeral?_cases written'
  apply eq_of_sign_of_bits (sign.symm.trans sign')
  rcases kind with ⟨zero, empty⟩ | ⟨binary, size, covers, filled⟩
  · rcases kind' with ⟨zero', -⟩ | ⟨-, -, -, filled'⟩
    · rw [bits_of_zero zero, bits_of_zero zero']
    · exact absurd empty filled'
  · rcases kind' with ⟨-, empty'⟩ | ⟨binary', size', covers', -⟩
    · exact absurd empty' filled
    · obtain rfl := covers.eq covers' (canonical_of_sizeOfBits size) (canonical_of_sizeOfBits size')
      exact bits_eq_of_sizeOfBits size size'

theorem plusSign_cases (layout : Layout) : layout.plusSign = [] ∨ layout.plusSign = ['+'] := by
  unfold Layout.plusSign
  split <;> simp

theorem readNumeral?_write (written : layout.numeral? value = some numeral) :
    readNumeral? (layout.write value) = some (numeral, []) := by
  have sign := plusSign_cases layout
  have read := readNumeral?_text sign (isProper_numeral? written) endsValue_nil
  rw [List.append_nil] at read
  rw [Layout.write, written]
  exact read

theorem write_of_nameless (nameless : layout.numeral? value = none) :
    readNumeral? (layout.write value) = none ∧
      (value = 1.0 / 0.0 ∧ layout.write value = ['i', 'n', 'f'] ∨
        value = -(1.0 / 0.0) ∧ layout.write value = ['-', 'i', 'n', 'f'] ∨
          value = 0.0 / 0.0 ∧ layout.write value = ['N', 'a', 'N']) := by
  have text : layout.write value = nameOf value := by rw [Layout.write, nameless]
  rw [text]
  unfold Layout.numeral? at nameless
  split at nameless
  · contradiction
  · contradiction
  · rename_i noZero noFinite
    cases size : sizeOf value with
    | zero => exact absurd size noZero
    | finite binary => exact absurd size (noFinite binary)
    | infinite => rcases eq_infinite size with rfl | rfl <;> decide
    | notANumber =>
        obtain rfl := eq_notANumber size
        decide

end

theorem write_injective (layout : Layout) : Function.Injective layout.write := by
  intro value other same
  cases written : layout.numeral? value with
  | some numeral =>
      have read := readNumeral?_write written
      cases written' : layout.numeral? other with
      | some numeral' =>
          have read' := readNumeral?_write written'
          rw [← same, read] at read'
          cases read'
          exact numeral?_inj written written'
      | none =>
          rw [same, (write_of_nameless written').1] at read
          contradiction
  | none =>
      obtain ⟨noNumeral, name⟩ := write_of_nameless written
      cases written' : layout.numeral? other with
      | some numeral' =>
          rw [same, readNumeral?_write written'] at noNumeral
          contradiction
      | none =>
          have name' := (write_of_nameless written').2
          rw [← same] at name'
          rcases name with ⟨rfl, text⟩ | ⟨rfl, text⟩ | ⟨rfl, text⟩ <;>
            rcases name' with ⟨rfl, text'⟩ | ⟨rfl, text'⟩ | ⟨rfl, text'⟩ <;>
              simp_all

theorem comma_not_mem_write (layout : Layout) (value : Float) : ',' ∉ layout.write value := by
  cases written : layout.numeral? value with
  | some numeral =>
      rw [Layout.write, written]
      exact comma_not_mem_text (plusSign_cases layout) (isProper_numeral? written)
  | none =>
      obtain ⟨-, ⟨-, text⟩ | ⟨-, text⟩ | ⟨-, text⟩⟩ := write_of_nameless written <;> simp [text]

theorem write_ne_nil (layout : Layout) (value : Float) : layout.write value ≠ [] := by
  cases written : layout.numeral? value with
  | some numeral =>
      intro empty
      have read := readNumeral?_write written
      rw [empty] at read
      contradiction
  | none =>
      obtain ⟨-, ⟨-, text⟩ | ⟨-, text⟩ | ⟨-, text⟩⟩ := write_of_nameless written <;> simp [text]

end Reckoner.Decimal
