import Mathlib.Tactic.IntervalCases
import Reckoner.Proofs.Text.Quoted

/-!
Theory of reading quoted text back: the written form of a character shows where it ends and which
character it is of, and none begins with a bare quote. So no two texts are quoted alike.
-/

namespace Reckoner.Text

def hexDigit (c : Char) : Nat :=
  if c ≤ '9' then c.toNat - 48 else c.toNat - 87

def hexValue (digits : List Char) : Nat :=
  digits.foldl (fun value c => value * 16 + hexDigit c) 0

def readChar? : List Char → Option (Char × List Char)
  | [] => none
  | '"' :: _ => none
  | '\\' :: 'n' :: rest => some ('\n', rest)
  | '\\' :: 'r' :: rest => some ('\r', rest)
  | '\\' :: 't' :: rest => some ('\t', rest)
  | '\\' :: '0' :: rest => some ('\x00', rest)
  | '\\' :: 'u' :: '{' :: rest =>
      some (Char.ofNat (hexValue (rest.takeWhile (· != '}'))), (rest.dropWhile (· != '}')).drop 1)
  | '\\' :: mark :: rest => some (mark, rest)
  | c :: rest => some (c, rest)

theorem hexDigit_digitChar {digit : Nat} (small : digit < 16) :
    hexDigit digit.digitChar = digit := by
  interval_cases digit <;> rfl

theorem hexValue_hexDigits (value : Nat) : hexValue (hexDigits value) = value := by
  induction value using Nat.strongRecOn with
  | ind value ih =>
      rw [hexDigits, Nat.toDigits_eq_if (by decide)]
      split
      · rename_i small
        simp [hexValue, hexDigit_digitChar small]
      · rename_i large
        have front := ih (value / 16) (by omega)
        have last := hexDigit_digitChar (Nat.mod_lt value (by decide : 0 < 16))
        rw [hexDigits] at front
        rw [hexValue, List.foldl_append, ← hexValue, front, List.foldl_cons, List.foldl_nil, last]
        omega

theorem ne_brace_of_mem_hexDigits {value : Nat} {c : Char} (member : c ∈ hexDigits value) :
    (c != '}') = true := by
  obtain ⟨digit, small, rfl⟩ := exists_digitChar_of_mem_hexDigits member
  interval_cases digit <;> rfl

theorem readChar?_code (c : Char) (rest : List Char) :
    readChar? (['\\', 'u', '{'] ++ hexDigits c.toNat ++ ['}'] ++ rest) = some (c, rest) := by
  have digits : (hexDigits c.toNat ++ '}' :: rest).takeWhile (· != '}') = hexDigits c.toNat := by
    rw [List.takeWhile_append_of_pos fun _ => ne_brace_of_mem_hexDigits]
    simp
  have others : (hexDigits c.toNat ++ '}' :: rest).dropWhile (· != '}') = '}' :: rest := by
    rw [List.dropWhile_append_of_pos fun _ => ne_brace_of_mem_hexDigits]
    simp
  simp [readChar?, digits, others, hexValue_hexDigits]

theorem readChar?_quoteChar (c : Char) (rest : List Char) :
    readChar? (quoteChar c ++ rest) = some (c, rest) := by
  unfold quoteChar
  split_ifs with quote backslash newline carriage tab zero unseen
  · rw [quote]
    rfl
  · rw [backslash]
    rfl
  · rw [newline]
    rfl
  · rw [carriage]
    rfl
  · rw [tab]
    rfl
  · rw [zero]
    rfl
  · exact readChar?_code c rest
  · simp [readChar?, backslash]

theorem quotedList_injective : Function.Injective quotedList := by
  intro text other same
  have written : text.flatMap quoteChar ++ ['"'] = other.flatMap quoteChar ++ ['"'] :=
    List.tail_eq_of_cons_eq same
  clear same
  -- Each step reads one character of both texts; the closing quote begins no written form.
  induction text generalizing other with
  | nil =>
      cases other with
      | nil => rfl
      | cons c others =>
          have read := readChar?_quoteChar c (others.flatMap quoteChar ++ ['"'])
          rw [← List.append_assoc, ← List.flatMap_cons, ← written] at read
          contradiction
  | cons c text ih =>
      have read := readChar?_quoteChar c (text.flatMap quoteChar ++ ['"'])
      rw [← List.append_assoc, ← List.flatMap_cons, written] at read
      cases other with
      | nil => contradiction
      | cons c' others =>
          rw [List.flatMap_cons, List.append_assoc, readChar?_quoteChar] at read
          obtain ⟨rfl, rests⟩ := Prod.mk.inj (Option.some.inj read)
          rw [ih rests.symm]

theorem quoted_injective : Function.Injective quoted := by
  intro text other same
  exact String.toList_injective (quotedList_injective (String.ofList_injective same))

end Reckoner.Text
