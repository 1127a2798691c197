import Mathlib.Data.String.Basic
import Reckoner.Proofs.Text.Blank
import Reckoner.Token.Scan

/-!
Theory of scanning.
-/

namespace Reckoner.Token

open Reckoner.Text
open String (utf8Len)

theorem scanFrom_nil (position : Nat) : scanFrom position [] = [] := by
  rw [scanFrom.eq_def]

theorem scanFrom_blank {c : Char} (blank : isBlank c = true) (position : Nat) (rest : List Char) :
    scanFrom position (c :: rest) = scanFrom (position + c.utf8Size) rest := by
  rw [scanFrom.eq_def]
  exact if_pos blank

theorem scanFrom_run {c : Char} {run after : List Char} (solid : isBlank c = false)
    (extended : ∀ d ∈ run, extendsBy c d = true)
    (stops : ∀ d, after.head? = some d → extendsBy c d = false) (position : Nat) :
    scanFrom position (c :: run ++ after) =
      { kind := kindOf c (String.ofList (c :: run)), text := String.ofList (c :: run), position } ::
        scanFrom (position + utf8Len (c :: run)) after := by
  have unextended : after.takeWhile (extendsBy c) = [] ∧ after.dropWhile (extendsBy c) = after := by
    cases after with
    | nil => simp
    | cons d after => simp [stops d rfl]
  have taken : (run ++ after).takeWhile (extendsBy c) = run := by
    rw [List.takeWhile_append_of_pos extended, unextended.1, List.append_nil]
  have dropped : (run ++ after).dropWhile (extendsBy c) = after := by
    rw [List.dropWhile_append_of_pos extended, unextended.2]
  rw [scanFrom.eq_def, List.cons_append]
  simp only [solid, taken, dropped, Bool.false_eq_true, if_false, String.utf8ByteSize_ofList]

theorem scanFrom_eq_nil_iff (position : Nat) (text : List Char) :
    scanFrom position text = [] ↔ ∀ c ∈ text, isBlank c = true := by
  fun_induction scanFrom position text with
  | case1 position => simp
  | case2 position c rest blank ih => simpa [blank] using ih
  | case3 position c rest solid text ih => simp [solid]

theorem scan_eq_nil_iff (text : String) :
    scan text = [] ↔ ∀ c ∈ text.toList, isBlank c = true :=
  scanFrom_eq_nil_iff 0 text.toList

theorem scan_ne_nil {text : String} (trimmed : trim text = text) (filled : text.toList ≠ []) :
    scan text ≠ [] := by
  intro none
  obtain ⟨first, rest, split⟩ := List.exists_cons_of_ne_nil filled
  have blank := (scan_eq_nil_iff text).mp none first (by simp [split])
  have solid := isBlank_of_trim_eq_self trimmed split
  simp [solid] at blank

end Reckoner.Token
