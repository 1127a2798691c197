import Reckoner.Decimal.Layout
import Reckoner.Decimal.Reading

/-!
Theory of digits. A number is read back from its digits, its first digit is not a zero unless it is
zero, and a run of digits ends where something else follows.
-/

namespace Reckoner.Decimal

theorem digitsValue_eq_ofDigitChars (start : Nat) (digits : List Char) :
    digitsValue start digits = Nat.ofDigitChars 10 digits start := by
  induction digits generalizing start with
  | nil => rfl
  | cons digit rest ih =>
      rw [Nat.ofDigitChars_cons, Nat.mul_comm 10 start]
      exact ih _

theorem digitsValue_digitList (value : Nat) : digitsValue 0 (digitList value) = value := by
  rw [digitsValue_eq_ofDigitChars, digitList, Nat.ofDigitChars_ten_toDigits]

theorem digitsValue_zeros (count : Nat) (digits : List Char) :
    digitsValue 0 (zeros count ++ digits) = digitsValue 0 digits := by
  simp only [digitsValue_eq_ofDigitChars, Nat.ofDigitChars_append, zeros,
    Nat.ofDigitChars_replicate_zero, Nat.mul_zero]

theorem digitList_ne_nil (value : Nat) : digitList value ≠ [] :=
  Nat.toDigits_ne_nil

theorem isDecimalDigit_of_mem_digitList {value : Nat} {c : Char} (member : c ∈ digitList value) :
    isDecimalDigit c = true :=
  Nat.isDigit_of_mem_toDigits (by decide) (by decide) member

theorem isDecimalDigit_of_mem_zeros {count : Nat} {c : Char} (member : c ∈ zeros count) :
    isDecimalDigit c = true := by
  rw [List.eq_of_mem_replicate member]
  rfl

theorem head_digitList_ne_zero {value : Nat} (positive : 0 < value) :
    (digitList value).head? ≠ some '0' := by
  induction value using Nat.strongRecOn with
  | ind value ih =>
      unfold digitList at ih ⊢
      by_cases small : value < 10
      · rw [Nat.toDigits_of_lt_base small]
        simpa using Nat.ne_of_gt positive
      · have shorter := ih (value / 10) (by omega) (by omega)
        obtain ⟨first, rest, split⟩ :=
          List.exists_cons_of_ne_nil (Nat.toDigits_ne_nil (n := value / 10) (b := 10))
        rw [split] at shorter
        rw [Nat.toDigits_of_base_le (by decide) (by omega), split]
        exact shorter

def EndsDigits (text : List Char) : Prop :=
  ∀ c, text.head? = some c → isDecimalDigit c = false

theorem endsDigits_nil : EndsDigits [] := by
  intro c found
  contradiction

theorem endsDigits_cons {c : Char} (other : isDecimalDigit c = false) (text : List Char) :
    EndsDigits (c :: text) := by
  intro first found
  cases found
  exact other

theorem EndsDigits.take {text : List Char} (ends : EndsDigits text) (count : Nat) :
    EndsDigits (text.take count) := by
  cases count with
  | zero => exact endsDigits_nil
  | succ count =>
      cases text with
      | nil => exact endsDigits_nil
      | cons c text => exact endsDigits_cons (ends c rfl) _

theorem takeWhile_digits {run text : List Char} (digits : ∀ c ∈ run, isDecimalDigit c = true)
    (ends : EndsDigits text) : (run ++ text).takeWhile isDecimalDigit = run := by
  rw [List.takeWhile_append_of_pos digits]
  cases text with
  | nil => simp
  | cons c text => simp [ends c rfl]

theorem dropWhile_digits {run text : List Char} (digits : ∀ c ∈ run, isDecimalDigit c = true)
    (ends : EndsDigits text) : (run ++ text).dropWhile isDecimalDigit = text := by
  rw [List.dropWhile_append_of_pos digits]
  cases text with
  | nil => simp
  | cons c text => simp [ends c rfl]

end Reckoner.Decimal
