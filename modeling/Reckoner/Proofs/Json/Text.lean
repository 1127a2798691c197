import Mathlib.Tactic.IntervalCases
import Reckoner.Json.Reader
import Reckoner.Json.Writer

/-!
Theory of JSON texts: a text is read back from its written form, whatever characters it has.
-/

namespace Reckoner.Json

open Reckoner.Text

theorem hexValue?_digitChar {digit : Nat} (small : digit < 16) :
    hexValue? digit.digitChar = some digit := by
  interval_cases digit <;> decide

theorem pieceOfHex?_low (high low : Nat) (highSmall : high < 16) (lowSmall : low < 16) :
    pieceOfHex? '0' '0' high.digitChar low.digitChar =
      some (.char (Char.ofNat (high * 16 + low))) := by
  have zero : hexValue? '0' = some 0 := by decide
  have plain : ¬(0xD800 ≤ high * 16 + low) := by omega
  simp [pieceOfHex?, zero, hexValue?_digitChar highSmall, hexValue?_digitChar lowSmall, plain]

theorem hexDigits_high {code : Nat} (high : 16 ≤ code) (low : code < 32) :
    hexDigits code = ['1', (code - 16).digitChar] := by
  have quotient : code / 16 = 1 := by omega
  have rest : code % 16 = code - 16 := by omega
  rw [hexDigits, Nat.toDigits_of_base_le (by decide) high, quotient, rest]
  rfl

theorem readPieces?_escapeChar (c : Char) (rest : List Char) :
    readPieces? (escapeChar c ++ rest) =
      (readPieces? rest).map fun (pieces, rest) => (.char c :: pieces, rest) := by
  by_cases quote : c = '"'
  · subst quote
    simp [escapeChar, readPieces?, shortEscape?]
  by_cases backslash : c = '\\'
  · subst backslash
    simp [escapeChar, readPieces?, shortEscape?]
  by_cases backspace : c = '\x08'
  · subst backspace
    simp [escapeChar, readPieces?, shortEscape?]
  by_cases formFeed : c = '\x0c'
  · subst formFeed
    simp [escapeChar, readPieces?, shortEscape?]
  by_cases newLine : c = '\n'
  · subst newLine
    simp [escapeChar, readPieces?, shortEscape?]
  by_cases carriageReturn : c = '\r'
  · subst carriageReturn
    simp [escapeChar, readPieces?, shortEscape?]
  by_cases tab : c = '\t'
  · subst tab
    simp [escapeChar, readPieces?, shortEscape?]
  by_cases low : c.toNat < 16
  · have digits : hexDigits c.toNat = [c.toNat.digitChar] := Nat.toDigits_of_lt_base low
    have piece : pieceOfHex? '0' '0' '0' c.toNat.digitChar = _ :=
      pieceOfHex?_low 0 c.toNat (by decide) low
    rw [Nat.zero_mul, Nat.zero_add, Char.ofNat_toNat] at piece
    simp [escapeChar, *, readPieces?]
  by_cases high : c.toNat < 32
  · have digits := hexDigits_high (Nat.le_of_not_lt low) high
    have piece : pieceOfHex? '0' '0' '1' (c.toNat - 16).digitChar = _ :=
      pieceOfHex?_low 1 (c.toNat - 16) (by decide) (by omega)
    rw [Nat.one_mul, Nat.add_sub_cancel' (Nat.le_of_not_lt low), Char.ofNat_toNat] at piece
    simp [escapeChar, *, readPieces?]
  · simp [escapeChar, *, readPieces?]

theorem readPieces?_escaped (content rest : List Char) :
    readPieces? (content.flatMap escapeChar ++ '"' :: rest) = some (content.map .char, rest) := by
  induction content with
  | nil => rfl
  | cons c content ih =>
      rw [List.flatMap_cons, List.append_assoc, readPieces?_escapeChar, ih]
      rfl

theorem joinPieces?_char (content : List Char) :
    joinPieces? (content.map .char) = some content := by
  induction content with
  | nil => rfl
  | cons c content ih => simp [joinPieces?, ih]

theorem readText?_escaped (content : String) (rest : List Char) :
    ∃ text, escaped content ++ rest = '"' :: text ∧ readText? text = some (some content, rest) := by
  refine ⟨content.toList.flatMap escapeChar ++ '"' :: rest, ?_, ?_⟩
  · simp [escaped]
  · simp [readText?, readPieces?_escaped, joinPieces?_char]

end Reckoner.Json
