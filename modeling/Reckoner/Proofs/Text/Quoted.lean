import Mathlib.Tactic.SplitIfs
import Reckoner.Text.Quoted

/-!
Theory of quoted text: all of it can be seen, whatever is quoted, so that it never breaks a line.
-/

namespace Reckoner.Text

theorem isUnseen_of_toNat {c : Char} (low : 0x20 ≤ c.toNat) (high : c.toNat < 0x7F) :
    isUnseen c = false := by
  obtain ⟨later, table⟩ :
      ∃ later, unseenIntervals = (0x0, 0x1F) :: (0x7F, 0xA0) :: later := ⟨_, rfl⟩
  have above : ¬c.toNat ≤ 0x1F := by omega
  rw [isUnseen, table, liesIn, liesIn]
  simp [above, high]

theorem exists_digitChar_of_mem_hexDigits {value : Nat} {c : Char}
    (member : c ∈ hexDigits value) : ∃ digit < 16, c = digit.digitChar := by
  induction value using Nat.strongRecOn with
  | ind value ih =>
      rw [hexDigits, Nat.toDigits_eq_if (by decide)] at member
      split at member
      · rename_i small
        exact ⟨value, small, List.mem_singleton.mp member⟩
      · rename_i large
        rcases List.mem_append.mp member with front | last
        · exact ih (value / 16) (by omega) front
        · exact ⟨value % 16, Nat.mod_lt _ (by decide), List.mem_singleton.mp last⟩

theorem isUnseen_of_mem_hexDigits {value : Nat} {c : Char} (member : c ∈ hexDigits value) :
    isUnseen c = false := by
  obtain ⟨digit, small, rfl⟩ := exists_digitChar_of_mem_hexDigits member
  have range : ∀ digit < 16, 0x20 ≤ digit.digitChar.toNat ∧ digit.digitChar.toNat < 0x7F := by
    decide
  exact isUnseen_of_toNat (range digit small).1 (range digit small).2

theorem mem_quoteChar_cases {quoted c : Char} (member : c ∈ quoteChar quoted) :
    c ∈ ['"', '\\', 'n', 'r', 't', '0', 'u', '\x7b', '\x7d'] ∨ c ∈ hexDigits quoted.toNat ∨
      c = quoted ∧ isUnseen quoted = false := by
  unfold quoteChar at member
  split_ifs at member <;>
    simp only [List.mem_cons, List.mem_append, List.not_mem_nil, or_false] at member ⊢ <;> grind

theorem isUnseen_of_mem_quoteChar {quoted c : Char} (member : c ∈ quoteChar quoted) :
    isUnseen c = false := by
  rcases mem_quoteChar_cases member with mark | digit | ⟨rfl, seen⟩
  · have marks : ['"', '\\', 'n', 'r', 't', '0', 'u', '\x7b', '\x7d'].all (!isUnseen ·) = true := by
      decide
    simpa using List.all_eq_true.mp marks c mark
  · exact isUnseen_of_mem_hexDigits digit
  · exact seen

theorem isUnseen_of_mem_quotedList {text : List Char} {c : Char}
    (member : c ∈ quotedList text) : isUnseen c = false := by
  have mark : isUnseen '"' = false := by decide
  simp only [quotedList, List.mem_cons, List.mem_append, List.mem_flatMap, List.not_mem_nil,
    or_false] at member
  rcases member with (rfl | ⟨quoted, -, inside⟩) | rfl
  · exact mark
  · exact isUnseen_of_mem_quoteChar inside
  · exact mark

end Reckoner.Text
