import Mathlib.Tactic.SplitIfs
import Reckoner.Instant
import Reckoner.Proofs.Alphabet
import Reckoner.Proofs.Decimal.Digits
import Reckoner.Proofs.Text.Blank

/-!
Theory of instants: one that is sound is read back from what it is written as. A number of it has a
width that its digits fill, but for a year of five or more digits, which has a sign before it and
ends where its digits end.
-/

namespace Reckoner.Instant

open Decimal Text

structure Sound (instant : Instant) : Prop where
  date : instant.date.isValid = true
  minute : instant.minute < minutesPerDay
  second : instant.second ≤ 60
  nano : instant.nano < tenTo 9

section
variable {width value : Nat}

theorem isDecimalDigit_of_mem_padded : ∀ c ∈ padded width value, isDecimalDigit c = true := by
  intro c member
  rcases List.mem_append.mp member with zero | inside
  · exact isDecimalDigit_of_mem_zeros zero
  · exact isDecimalDigit_of_mem_digitList inside

theorem digitsValue_padded : digitsValue 0 (padded width value) = value := by
  rw [padded, digitsValue_zeros, digitsValue_digitList]

theorem padded_ne_nil : padded width value ≠ [] := by
  simp [padded, digitList_ne_nil]

theorem padded_head : ∃ first others, padded width value = first :: others ∧
    isDecimalDigit first = true := by
  obtain ⟨first, others, split⟩ :=
    List.exists_cons_of_ne_nil (@padded_ne_nil width value)
  exact ⟨first, others, split, isDecimalDigit_of_mem_padded first (split ▸ List.mem_cons_self)⟩

theorem length_padded (positive : 0 < width) (small : value < tenTo width) :
    (padded width value).length = width := by
  have short : (digitList value).length ≤ width :=
    (Nat.length_toDigits_le_iff (by decide) positive).mpr small
  simp [padded, zeros]
  omega

end

theorem dropBlank_padded (width value : Nat) (rest : List Char) :
    dropBlank (padded width value ++ rest) = padded width value ++ rest := by
  obtain ⟨first, others, split, digit⟩ := @padded_head width value
  rw [split, List.cons_append]
  exact dropBlank_cons (Alphabet.isBlank_of_isDigit digit) _

theorem readNumber?_padded (width value most : Nat) {rest : List Char}
    (ends : EndsDigits (rest.take (most - (padded width value).length)))
    (enough : (padded width value).length ≤ most) :
    readNumber? most (padded width value ++ rest) = some (value, rest) := by
  have taken : ((padded width value ++ rest).take most).takeWhile isDecimalDigit =
      padded width value := by
    rw [List.take_append, List.take_of_length_le enough]
    exact takeWhile_digits isDecimalDigit_of_mem_padded ends
  simp [readNumber?, taken, padded_ne_nil, digitsValue_padded]

theorem readField?_padded {width value : Nat} (positive : 0 < width) (small : value < tenTo width)
    (rest : List Char) : readField? width (padded width value ++ rest) = some (value, rest) := by
  have length := length_padded positive small
  rw [readField?, dropBlank_padded]
  apply readNumber?_padded
  · simpa [length] using endsDigits_nil
  · exact Nat.le_of_eq length

theorem readMark?_cons {mark : Char} (solid : isBlank mark = false) (rest : List Char) :
    readMark? mark (mark :: rest) = some rest := by
  simp [readMark?, dropBlank_cons solid]

theorem readYear?_writeYear (year : Int) (rest : List Char) :
    readYear? (writeYear year ++ '-' :: rest) = some (year, '-' :: rest) := by
  have ends : EndsDigits ('-' :: rest) := endsDigits_cons rfl rest
  have read := readNumber?_padded 4 year.natAbs (padded 4 year.natAbs ++ '-' :: rest).length
    (ends.take _) (by simp)
  unfold writeYear
  split
  · have negated : -(year.natAbs : Int) = year := by omega
    simp only [readYear?, List.cons_append, @dropBlank_cons '-' rfl, read, Option.map_some,
      negated]
  · have kept : (year.natAbs : Int) = year := by omega
    split
    · simp only [readYear?, List.cons_append, @dropBlank_cons '+' rfl, read, Option.map_some,
        kept]
    · have small : year.natAbs < tenTo 4 := by
        rw [show tenTo 4 = 10000 from rfl]
        omega
      have read := readField?_padded (by decide) small ('-' :: rest)
      obtain ⟨first, others, split, digit⟩ := @padded_head 4 year.natAbs
      have solid := Alphabet.isBlank_of_isDigit digit
      have unsigned : first ≠ '-' ∧ first ≠ '+' := by
        constructor <;> rintro rfl <;> contradiction
      rw [split, List.cons_append, readField?, dropBlank_cons solid] at read
      rw [split, List.cons_append]
      simp [readYear?, dropBlank_cons solid, unsigned, read, kept]

theorem readNano?_padded {width value : Nat} (positive : 0 < width) (short : width ≤ 9)
    (small : value < tenTo width) :
    readNano? ('.' :: padded width value ++ ['Z']) = some (value * tenTo (9 - width), ['Z']) := by
  have length := length_padded positive small
  have ends : EndsDigits ['Z'] := endsDigits_cons rfl []
  have taken := takeWhile_digits (@isDecimalDigit_of_mem_padded width value) ends
  have dropped := dropWhile_digits (@isDecimalDigit_of_mem_padded width value) ends
  have kept : (padded width value).take 9 = padded width value :=
    List.take_of_length_le (by omega)
  simp [readNano?, taken, dropped, kept, length, padded_ne_nil, digitsValue_padded]

theorem readNano?_writeNano {nano : Nat} (small : nano < tenTo 9) :
    readNano? (writeNano nano ++ ['Z']) = some (nano, ['Z']) := by
  have nine : tenTo 9 = 1000000000 := rfl
  unfold writeNano
  split
  · rename_i none
    rw [none]
    rfl
  · split
    · rename_i millis
      have three : tenTo 3 = 1000 := rfl
      have six : tenTo 6 = 1000000 := rfl
      rw [readNano?_padded (by decide) (by decide) (by omega), six, Nat.div_mul_cancel (by omega)]
    · split
      · have three : tenTo 3 = 1000 := rfl
        have six : tenTo 6 = 1000000 := rfl
        rw [readNano?_padded (by decide) (by decide) (by omega), three,
          Nat.div_mul_cancel (by omega)]
      · rw [readNano?_padded (by decide) (by decide) small]
        simp [tenTo]

theorem behind_zero {instant : Instant} (minute : instant.minute < minutesPerDay) :
    behind 0 instant = instant := by
  have after : ¬(instant.minute : Int) < 0 := by omega
  have before : ¬(minutesPerDay : Int) ≤ instant.minute := by omega
  simp [behind, after, before]

theorem readTwo_padded {value : Nat} (small : value < 100) (rest : List Char) :
    readField? 2 (padded 2 value ++ rest) = some (value, rest) :=
  readField?_padded (by decide) small rest

theorem readSeparator?_letter (rest : List Char) : readSeparator? ('T' :: rest) = some rest :=
  rfl

theorem readOffset?_universal : readOffset? ['Z'] = some (0, []) :=
  rfl

theorem daysInMonth_le (year : Int) (month : Nat) : Date.daysInMonth year month ≤ 31 := by
  unfold Date.daysInMonth
  split_ifs <;> omega

theorem two_digits {date : Date} (valid : date.isValid = true) :
    date.month < 100 ∧ date.day < 100 := by
  have days := daysInMonth_le date.year date.month
  simp only [Date.isValid, Bool.and_eq_true, decide_eq_true_eq] at valid
  omega

theorem read?_write {instant : Instant} (sound : instant.Sound) :
    read? instant.write = some instant := by
  have hour : instant.minute / 60 < 24 := Nat.div_lt_of_lt_mul sound.minute
  have inHour : instant.minute % 60 < 60 := Nat.mod_lt instant.minute (by decide)
  have joined : instant.minute / 60 * 60 + instant.minute % 60 = instant.minute :=
    Nat.div_add_mod' instant.minute 60
  have readMonth := readTwo_padded (two_digits sound.date).1
  have readDay := readTwo_padded (two_digits sound.date).2
  have readHour := readTwo_padded (Nat.lt_trans hour (by decide))
  have readMinute := readTwo_padded (Nat.lt_trans inHour (by decide))
  have readSecond := readTwo_padded (Nat.lt_of_le_of_lt sound.second (by decide))
  have solid : dropBlank ['Z'] = ['Z'] := rfl
  simp only [write, List.append_assoc, List.cons_append]
  unfold read?
  dsimp only [bind, Option.bind]
  simp only [readYear?_writeYear, @readMark?_cons '-' rfl, readMonth, readDay,
    readSeparator?_letter, readHour, @readMark?_cons ':' rfl, readMinute, readSecond,
    readNano?_writeNano sound.nano, solid, readOffset?_universal, joined, behind_zero sound.minute,
    sound.date]
  simp [dropBlank, hour, inHour, sound.second]

end Reckoner.Instant
