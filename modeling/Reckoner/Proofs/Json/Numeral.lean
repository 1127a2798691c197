import Reckoner.Json.Reader
import Reckoner.Json.Writer
import Reckoner.Proofs.Decimal.Digits

/-!
Theory of JSON numerals: a numeral is read back from its text, part by part, if it has no leading
zero and something other than a number follows.
-/

namespace Reckoner.Json

open Reckoner.Decimal

def isProper (numeral : Numeral) : Bool :=
  (numeral.whole == ['0'] || !numeral.whole.isEmpty && numeral.whole.head? != some '0') &&
    numeral.whole.all isDecimalDigit && numeral.part.all isDecimalDigit

def isEnd (c : Char) : Bool :=
  !isDecimalDigit c && c != '.' && c != 'e' && c != 'E'

/-- Whether a value may end before the text. -/
def EndsValue (text : List Char) : Prop :=
  ∀ c, text.head? = some c → isEnd c = true

theorem endsValue_nil : EndsValue [] := by
  intro c found
  contradiction

theorem endsValue_cons {c : Char} (mark : isEnd c = true) (text : List Char) :
    EndsValue (c :: text) := by
  intro first found
  cases found
  exact mark

theorem isEnd_of_isSpace {c : Char} (space : isSpace c = true) : isEnd c = true := by
  simp only [isSpace, Bool.or_eq_true, beq_iff_eq] at space
  rcases space with ((rfl | rfl) | rfl) | rfl <;> rfl

theorem EndsValue.of_blank {blank text : List Char} (spaces : ∀ c ∈ blank, isSpace c = true)
    (ends : EndsValue text) : EndsValue (blank ++ text) := by
  cases blank with
  | nil => exact ends
  | cons c blank => exact endsValue_cons (isEnd_of_isSpace (spaces c List.mem_cons_self)) _

theorem EndsValue.endsDigits {text : List Char} (ends : EndsValue text) : EndsDigits text := by
  intro c found
  have plain := ends c found
  simp only [isEnd, Bool.and_eq_true, Bool.not_eq_true'] at plain
  exact plain.1.1.1

theorem EndsValue.readExponent?_eq {text : List Char} (ends : EndsValue text) :
    readExponent? text = some (none, text) := by
  cases text with
  | nil => rfl
  | cons c text =>
      have plain := ends c rfl
      simp only [isEnd, Bool.and_eq_true, bne_iff_ne] at plain
      simp [readExponent?, plain.1.2, plain.2]

theorem EndsValue.readPart?_eq {text : List Char} (ends : EndsValue text) :
    readPart? text = some ([], text) := by
  cases text with
  | nil => rfl
  | cons c text =>
      have plain := ends c rfl
      simp only [isEnd, Bool.and_eq_true, bne_iff_ne] at plain
      simp [readPart?, plain.1.1.2]

def exponentText (plus : List Char) : Option Int → List Char
  | none => []
  | some exponent => 'e' :: (if exponent < 0 then ['-'] else plus) ++ digitList exponent.natAbs

def partText (part : List Char) : List Char :=
  if part.isEmpty then [] else '.' :: part

theorem text_eq (plus : List Char) (numeral : Numeral) :
    numeral.text plus = signed numeral.negative
      (numeral.whole ++ partText numeral.part ++ exponentText plus numeral.exponent) := by
  obtain ⟨negative, whole, part, exponent⟩ := numeral
  cases exponent <;> rfl

theorem readExponent?_exponentText {plus : List Char} (sign : plus = [] ∨ plus = ['+'])
    (exponent : Option Int) {rest : List Char} (ends : EndsValue rest) :
    readExponent? (exponentText plus exponent ++ rest) = some (exponent, rest) := by
  cases exponent with
  | none => exact ends.readExponent?_eq
  | some exponent =>
      obtain ⟨count, counted⟩ : ∃ count, exponent.natAbs = count := ⟨_, rfl⟩
      have digits : ∀ c ∈ digitList count, isDecimalDigit c = true :=
        fun _ member => isDecimalDigit_of_mem_digitList member
      have taken := takeWhile_digits digits ends.endsDigits
      have dropped := dropWhile_digits digits ends.endsDigits
      have value := digitsValue_digitList count
      obtain ⟨first, others, split⟩ := List.exists_cons_of_ne_nil (digitList_ne_nil count)
      have unsigned : isDecimalDigit first = true := digits first (by simp [split])
      have noMinus : first ≠ '-' := by
        rintro rfl
        exact absurd unsigned (by decide)
      have noPlus : first ≠ '+' := by
        rintro rfl
        exact absurd unsigned (by decide)
      rw [split] at taken dropped value
      rw [List.cons_append] at taken dropped
      by_cases negative : exponent < 0
      · have size : -(count : Int) = exponent := by omega
        simp [exponentText, negative, readExponent?, counted, split, taken, dropped, value, size]
      · have size : (count : Int) = exponent := by omega
        rcases sign with rfl | rfl <;>
          simp [exponentText, negative, readExponent?, counted, split, taken, dropped, value, size,
            noMinus, noPlus]

theorem endsDigits_exponentText (plus : List Char) (exponent : Option Int) {rest : List Char}
    (ends : EndsValue rest) : EndsDigits (exponentText plus exponent ++ rest) := by
  cases exponent with
  | none => exact ends.endsDigits
  | some exponent => exact endsDigits_cons rfl _

theorem readPart?_partText {part : List Char} (digits : ∀ c ∈ part, isDecimalDigit c = true)
    (plus : List Char) (exponent : Option Int) {rest : List Char} (ends : EndsValue rest) :
    readPart? (partText part ++ (exponentText plus exponent ++ rest)) =
      some (part, exponentText plus exponent ++ rest) := by
  have after := endsDigits_exponentText plus exponent ends
  cases part with
  | nil =>
      cases exponent with
      | some exponent => rfl
      | none => exact ends.readPart?_eq
  | cons digit part =>
      simp only [partText, List.isEmpty_cons, Bool.false_eq_true, if_false, List.cons_append,
        readPart?]
      rw [← List.cons_append, takeWhile_digits digits after, dropWhile_digits digits after]
      rfl

theorem endsDigits_partText (part : List Char) {text : List Char} (ends : EndsDigits text) :
    EndsDigits (partText part ++ text) := by
  cases part with
  | nil => exact ends
  | cons digit part => exact endsDigits_cons rfl _

theorem readWhole?_digits {whole text : List Char}
    (start : whole = ['0'] ∨ whole ≠ [] ∧ whole.head? ≠ some '0')
    (digits : ∀ c ∈ whole, isDecimalDigit c = true) (ends : EndsDigits text) :
    readWhole? (whole ++ text) = some (whole, text) := by
  rcases start with rfl | ⟨filled, unpadded⟩
  · rfl
  · obtain ⟨first, rest, rfl⟩ := List.exists_cons_of_ne_nil filled
    have other : first ≠ '0' := by simpa using unpadded
    have taken := takeWhile_digits digits ends
    have dropped := dropWhile_digits digits ends
    rw [List.cons_append] at taken dropped ⊢
    simp [readWhole?, other, taken, dropped]

theorem isProper_iff (numeral : Numeral) : isProper numeral = true ↔
    (numeral.whole = ['0'] ∨ numeral.whole ≠ [] ∧ numeral.whole.head? ≠ some '0') ∧
      (∀ c ∈ numeral.whole, isDecimalDigit c = true) ∧
        ∀ c ∈ numeral.part, isDecimalDigit c = true := by
  simp [isProper, and_assoc]

theorem exists_first_digit {numeral : Numeral} (proper : isProper numeral = true) :
    ∃ first others, numeral.whole = first :: others ∧ isDecimalDigit first = true := by
  obtain ⟨start, digits, _⟩ := (isProper_iff numeral).mp proper
  have filled : numeral.whole ≠ [] := by
    rcases start with zero | ⟨filled, _⟩
    · simp [zero]
    · exact filled
  obtain ⟨first, others, whole⟩ := List.exists_cons_of_ne_nil filled
  exact ⟨first, others, whole, digits first (by simp [whole])⟩

theorem numeralText_head {numeral : Numeral} (proper : isProper numeral = true) :
    ∃ c text, numeralText numeral = c :: text ∧ (c = '-' ∨ isDecimalDigit c = true) := by
  obtain ⟨first, others, whole, digit⟩ := exists_first_digit proper
  rw [numeralText, text_eq, whole]
  cases numeral.negative with
  | true => exact ⟨'-', _, rfl, Or.inl rfl⟩
  | false => exact ⟨first, _, rfl, Or.inr digit⟩

theorem readNumeral?_text {plus : List Char} (sign : plus = [] ∨ plus = ['+']) {numeral : Numeral}
    (proper : isProper numeral = true) {rest : List Char} (ends : EndsValue rest) :
    readNumeral? (numeral.text plus ++ rest) = some (numeral, rest) := by
  obtain ⟨start, wholeDigits, partDigits⟩ := (isProper_iff numeral).mp proper
  obtain ⟨first, others, whole, digit⟩ := exists_first_digit proper
  obtain ⟨negative, whole, part, exponent⟩ := numeral
  subst whole
  have readWhole := readWhole?_digits start wholeDigits
    (endsDigits_partText part (endsDigits_exponentText plus exponent ends))
  have readPart := readPart?_partText partDigits plus exponent ends
  have readExponent := readExponent?_exponentText sign exponent ends
  rw [List.cons_append] at readWhole
  rw [text_eq]
  cases negative with
  | true => simp [signed, readNumeral?, List.append_assoc, readWhole, readPart, readExponent]
  | false =>
      have unsigned : first ≠ '-' := by
        rintro rfl
        exact absurd digit (by decide)
      simp [signed, readNumeral?, List.append_assoc, unsigned, readWhole, readPart, readExponent]

theorem comma_not_mem_digits {digits : List Char} (all : ∀ c ∈ digits, isDecimalDigit c = true) :
    ',' ∉ digits := by
  intro member
  exact absurd (all ',' member) (by decide)

theorem comma_not_mem_text {plus : List Char} (sign : plus = [] ∨ plus = ['+']) {numeral : Numeral}
    (proper : isProper numeral = true) : ',' ∉ numeral.text plus := by
  obtain ⟨-, whole, part⟩ := (isProper_iff _).mp proper
  have behind : ',' ∉ partText numeral.part := by
    unfold partText
    split
    · simp
    · simp [comma_not_mem_digits part]
  have power : ',' ∉ exponentText plus numeral.exponent := by
    cases numeral.exponent with
    | none => simp [exponentText]
    | some exponent =>
        have digits : ',' ∉ digitList exponent.natAbs :=
          comma_not_mem_digits fun _ => isDecimalDigit_of_mem_digitList
        have signs : ',' ∉ (if exponent < 0 then ['-'] else plus) := by
          split
          · simp
          · rcases sign with rfl | rfl <;> simp
        simp [exponentText, digits, signs]
  have front := comma_not_mem_digits whole
  rw [text_eq]
  unfold signed
  split <;> simp [front, behind, power]

end Reckoner.Json
