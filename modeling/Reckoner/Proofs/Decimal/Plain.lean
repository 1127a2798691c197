import Reckoner.Proofs.Alphabet
import Reckoner.Proofs.Decimal.Nearest
import Reckoner.Proofs.Decimal.Writing

/-!
Plain decimals: digits, and behind a point further digits. They are read as the double nearest to
their value. A finite double without a sign is written as one, and so it is read back.
-/

namespace Reckoner.Decimal

open Json (partText endsDigits_partText exists_first_digit isProper_iff isProper_numeral? text_eq)

def IsPlain (text : List Char) : Prop :=
  ∃ whole part, text = whole ++ partText part ∧ whole ≠ [] ∧
    (∀ c ∈ whole, isDecimalDigit c = true) ∧ ∀ c ∈ part, isDecimalDigit c = true

theorem read?_cons_of_digit {first : Char} (digit : isDecimalDigit first = true)
    (rest : List Char) : read? (first :: rest) = readDigits? (first :: rest) := by
  have noMinus : first ≠ '-' := by
    rintro rfl
    exact absurd digit (by decide)
  have noPlus : first ≠ '+' := by
    rintro rfl
    exact absurd digit (by decide)
  have noLetter : Alphabet.isLetter first.toLower = false := by
    rw [Alphabet.isLetter_toLower]
    exact Alphabet.isLetter_of_isDigit digit
  have unnamed : ∀ letter others, Alphabet.isLetter letter = true →
      (first :: rest).map Char.toLower ≠ letter :: others := by
    intro letter others isLetter same
    rw [List.map_cons, List.cons.injEq] at same
    rw [same.1, isLetter] at noLetter
    contradiction
  have unsigned : read? (first :: rest) = readUnsigned? (first :: rest) := by
    unfold read?
    split <;> simp_all
  rw [unsigned, readUnsigned?]
  simp only [unnamed 'i' _ rfl, unnamed 'n' _ rfl, decide_false, Bool.or_self, Bool.false_eq_true,
    if_false]

theorem readDigits?_plain {whole part : List Char} (filled : whole ≠ [])
    (digits : ∀ c ∈ whole, isDecimalDigit c = true)
    (digits' : ∀ c ∈ part, isDecimalDigit c = true) :
    readDigits? (whole ++ partText part) =
      some (nearest (digitsValue 0 (whole ++ part)) (-(part.length : Int))) := by
  have some : whole.isEmpty = false := by simpa using filled
  have ends : EndsDigits (partText part) := by
    simpa using endsDigits_partText part endsDigits_nil
  have joined : digitsValue (digitsValue 0 whole) part = digitsValue 0 (whole ++ part) := by
    simp only [digitsValue, List.foldl_append]
  unfold readDigits?
  rw [takeWhile_digits digits ends, dropWhile_digits digits ends]
  cases part with
  | nil => simp [partText, some, readExponent?, digitsValue]
  | cons digit part =>
      have taken := takeWhile_digits digits' endsDigits_nil
      have dropped := dropWhile_digits digits' endsDigits_nil
      rw [List.append_nil] at taken dropped
      rw [← joined]
      simp [partText, some, taken, dropped, readExponent?]

theorem read?_plain {whole part : List Char} (filled : whole ≠ [])
    (digits : ∀ c ∈ whole, isDecimalDigit c = true)
    (digits' : ∀ c ∈ part, isDecimalDigit c = true) :
    read? (whole ++ partText part) =
      some (nearest (digitsValue 0 (whole ++ part)) (-(part.length : Int))) := by
  rw [← readDigits?_plain filled digits digits']
  obtain ⟨first, rest, rfl⟩ := List.exists_cons_of_ne_nil filled
  exact read?_cons_of_digit (digits first List.mem_cons_self) _

theorem IsPlain.read? {text : List Char} (plain : IsPlain text) :
    ∃ value, read? text = some value ∧ isNegative value = false := by
  obtain ⟨whole, part, rfl, filled, digits, digits'⟩ := plain
  exact ⟨_, read?_plain filled digits digits', isNegative_nearest _ _⟩

section
variable {value : Float}

theorem exists_numeral_of_isFinite (layout : Layout) (finite : value.isFinite = true) :
    ∃ numeral, layout.numeral? value = some numeral := by
  cases written : layout.numeral? value with
  | some numeral => exact ⟨numeral, rfl⟩
  | none =>
      rcases (write_of_nameless written).2 with ⟨rfl, -⟩ | ⟨rfl, -⟩ | ⟨rfl, -⟩ <;>
        exact absurd finite (by decide)

theorem exponent_positional (negative : Bool) (trailing digits : List Char) (exponent : Int) :
    (Numeral.positional negative trailing digits exponent).exponent = none := by
  unfold Numeral.positional
  extract_lets lead
  split_ifs <;> rfl

theorem exponent_plain {numeral : Numeral} (written : Layout.plain.numeral? value = some numeral) :
    numeral.exponent = none := by
  unfold Layout.numeral? at written
  split at written
  · cases written
    rfl
  · cases written
    exact exponent_positional _ _ _ _
  · contradiction

theorem read?_write (finite : value.isFinite = true) (sign : isNegative value = false) :
    IsPlain (Layout.plain.write value) ∧ read? (Layout.plain.write value) = some value := by
  obtain ⟨numeral, written⟩ := exists_numeral_of_isFinite Layout.plain finite
  have proper := isProper_numeral? written
  obtain ⟨-, digits, digits'⟩ := (isProper_iff numeral).mp proper
  have filled : numeral.whole ≠ [] := by
    obtain ⟨first, others, whole, -⟩ := exists_first_digit proper
    simp [whole]
  obtain ⟨negative, size⟩ := numeral?_cases written
  have bare := exponent_plain written
  have text : Layout.plain.write value = numeral.whole ++ partText numeral.part := by
    rw [Layout.write, written]
    dsimp only
    rw [text_eq, negative, sign, bare]
    simp [signed, Json.exponentText]
  refine ⟨⟨numeral.whole, numeral.part, text, filled, digits, digits'⟩, ?_⟩
  rw [text, read?_plain filled digits digits', Option.some.injEq]
  rw [Numeral.size, bare, Option.getD_none, zero_sub] at size
  rcases size with ⟨zero, none⟩ | ⟨binary, size, covers, -⟩
  · have digits : digitsValue 0 (numeral.whole ++ numeral.part) = 0 := by
      have unit : (10 : ℚ) ^ (-(numeral.part.length : Int)) ≠ 0 := by positivity
      exact_mod_cast (mul_eq_zero.mp none).resolve_right unit
    rcases eq_zero zero with rfl | rfl
    · rw [digits, nearest]
      rfl
    · exact absurd sign (by decide)
  · exact nearest_eq size sign covers

end

end Reckoner.Decimal
