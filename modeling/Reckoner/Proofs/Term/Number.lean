import Mathlib.Data.List.DropRight
import Reckoner.Proofs.Decimal.Plain
import Reckoner.Proofs.Token.Munch
import Reckoner.Term.Grammar

/-!
The numbers of terms. What is left of a numeral when it is cut in front of its second point, and
its last points are dropped, is a plain decimal, and a plain decimal is left as it is. So the number
of a numeral is never negative, and a finite one is found again in its own text.
-/

namespace Reckoner.Term

open Reckoner.Alphabet Reckoner.Decimal
open Reckoner.Token (IsNumeral isNumeral_cons_iff)
open Reckoner.Json (partText)

theorem dropTrailingPoints_digits {digits : List Char} (filled : digits ≠ [])
    (decimal : ∀ c ∈ digits, isDecimalDigit c = true) (front : List Char) :
    dropTrailingPoints (front ++ digits) = front ++ digits := by
  obtain ⟨others, last, rfl⟩ := (List.eq_nil_or_concat digits).resolve_left filled
  have other : ¬(last == '.') = true := by
    rw [beq_iff_eq]
    rintro rfl
    exact absurd (decimal '.' (by simp)) (by decide)
  rw [List.concat_eq_append, ← List.append_assoc]
  exact List.rdropWhile_concat_neg (p := (· == '.')) _ _ other

theorem dropTrailingPoints_point (front : List Char) :
    dropTrailingPoints (front ++ ['.']) = dropTrailingPoints front :=
  List.rdropWhile_concat_pos (p := (· == '.')) _ _ rfl

theorem noPoint_of_digits {digits : List Char} (decimal : ∀ c ∈ digits, isDecimalDigit c = true) :
    ∀ c ∈ digits, (c != '.') = true := by
  intro c member
  rw [bne_iff_ne]
  rintro rfl
  exact absurd (decimal '.' member) (by decide)

theorem beforeSecondPoint_digits {whole : List Char}
    (digits : ∀ c ∈ whole, isDecimalDigit c = true) : beforeSecondPoint whole = whole := by
  have none := List.dropWhile_eq_nil_iff.mpr (noPoint_of_digits digits)
  have all := List.takeWhile_eq_self_iff.mpr (noPoint_of_digits digits)
  simp only [beforeSecondPoint, none, all]

theorem beforeSecondPoint_point {whole : List Char}
    (digits : ∀ c ∈ whole, isDecimalDigit c = true) (rest : List Char) :
    beforeSecondPoint (whole ++ '.' :: rest) = whole ++ '.' :: rest.takeWhile (· != '.') := by
  have noPoint := noPoint_of_digits digits
  have taken : (whole ++ '.' :: rest).takeWhile (· != '.') = whole := by
    rw [List.takeWhile_append_of_pos noPoint]
    simp
  have dropped : (whole ++ '.' :: rest).dropWhile (· != '.') = '.' :: rest := by
    rw [List.dropWhile_append_of_pos noPoint]
    simp
  simp only [beforeSecondPoint, taken, dropped]

theorem cut_of_isPlain {text : List Char} (plain : IsPlain text) :
    dropTrailingPoints (beforeSecondPoint text) = text := by
  obtain ⟨whole, part, rfl, filled, digits, digits'⟩ := plain
  cases part with
  | nil =>
      rw [partText, List.isEmpty_nil, if_pos rfl, List.append_nil, beforeSecondPoint_digits digits]
      exact dropTrailingPoints_digits filled digits []
  | cons digit part =>
      have all := List.takeWhile_eq_self_iff.mpr (noPoint_of_digits digits')
      rw [partText, List.isEmpty_cons, if_neg Bool.false_ne_true, beforeSecondPoint_point digits,
        all, List.append_cons]
      exact dropTrailingPoints_digits (List.cons_ne_nil digit part) digits' (whole ++ ['.'])

theorem exists_of_isNumeral {text : List Char} (numeral : IsNumeral text) :
    ∃ whole, whole ≠ [] ∧ (∀ c ∈ whole, isDecimalDigit c = true) ∧
      (text = whole ∨ ∃ rest, text = whole ++ '.' :: rest ∧
        ∀ c ∈ rest, isDecimalDigit c = true ∨ isPoint c = true) := by
  obtain ⟨first, others, rfl, digit, run⟩ := numeral
  change isDecimalDigit first = true at digit
  have split := List.takeWhile_append_dropWhile (p := isDecimalDigit) (l := first :: others)
  have filled : (first :: others).takeWhile isDecimalDigit ≠ [] := by
    rw [List.takeWhile_cons_of_pos digit]
    exact List.cons_ne_nil _ _
  refine ⟨_, filled, List.all_eq_true.mp List.all_takeWhile, ?_⟩
  cases after : (first :: others).dropWhile isDecimalDigit with
  | nil =>
      rw [after, List.append_nil] at split
      exact Or.inl split.symm
  | cons c rest =>
      rw [after] at split
      have inside : ∀ d ∈ c :: rest, d ∈ first :: others :=
        fun d member => split ▸ List.mem_append_right _ member
      have classes : ∀ d ∈ first :: others, isDecimalDigit d = true ∨ isPoint d = true :=
        List.forall_mem_cons.mpr ⟨Or.inl digit, run⟩
      have stop := List.head?_dropWhile_not isDecimalDigit (first :: others)
      rw [after] at stop
      have point : c = '.' := by
        rcases classes c (inside c List.mem_cons_self) with digit | point
        · simp [digit] at stop
        · simpa [isPoint] using point
      subst point
      exact Or.inr ⟨rest, split.symm,
        fun d member => classes d (inside d (List.mem_cons_of_mem _ member))⟩

theorem isPlain_cut {text : List Char} (numeral : IsNumeral text) :
    IsPlain (dropTrailingPoints (beforeSecondPoint text)) := by
  obtain ⟨whole, filled, digits, rfl | ⟨rest, rfl, classes⟩⟩ := exists_of_isNumeral numeral
  · have plain : IsPlain text := ⟨text, [], by simp [partText], filled, digits, by simp⟩
    rwa [cut_of_isPlain plain]
  · rw [beforeSecondPoint_point digits]
    have digits' : ∀ c ∈ rest.takeWhile (· != '.'), isDecimalDigit c = true := by
      intro c member
      have other := List.all_eq_true.mp List.all_takeWhile c member
      rcases classes c ((List.takeWhile_sublist _).subset member) with digit | point
      · exact digit
      · simp_all [isPoint]
    by_cases none : rest.takeWhile (· != '.') = []
    · rw [none, dropTrailingPoints_point, ← List.nil_append whole,
        dropTrailingPoints_digits filled digits]
      exact ⟨whole, [], by simp [partText], filled, digits, by simp⟩
    · rw [List.append_cons, dropTrailingPoints_digits none digits', ← List.append_cons]
      exact ⟨whole, _, by simp [partText, none], filled, digits, digits'⟩

theorem isNumeral_of_isPlain {text : List Char} (plain : IsPlain text) : IsNumeral text := by
  obtain ⟨whole, part, rfl, filled, digits, digits'⟩ := plain
  obtain ⟨first, others, rfl⟩ := List.exists_cons_of_ne_nil filled
  refine ⟨first, others ++ partText part, rfl, digits first List.mem_cons_self, ?_⟩
  intro c member
  rcases List.mem_append.mp member with inside | behind
  · exact Or.inl (digits c (List.mem_cons_of_mem _ inside))
  · unfold partText at behind
    split at behind
    · contradiction
    · rcases List.mem_cons.mp behind with rfl | inside
      · exact Or.inr rfl
      · exact Or.inl (digits' c inside)

theorem isNegative_leadingNumber {text : String} (numeral : IsNumeral text.toList) :
    isNegative (leadingNumber text) = false := by
  obtain ⟨value, read, sign⟩ := (isPlain_cut numeral).read?
  rw [leadingNumber, read]
  exact sign

theorem leadingNumber_plainText {value : Float} (finite : value.isFinite = true)
    (sign : isNegative value = false) :
    IsNumeral (plainText value).toList ∧ leadingNumber (plainText value) = value := by
  obtain ⟨plain, read⟩ := read?_write finite sign
  rw [leadingNumber, plainText, String.toList_ofList, cut_of_isPlain plain, read]
  exact ⟨isNumeral_of_isPlain plain, rfl⟩

end Reckoner.Term
