import Mathlib.Data.String.Basic

/-!
Theory of slices. An offset of a text that is the boundary of two characters splits the text in two,
and what is read at such offsets is what the parts say.
-/

namespace Reckoner.Text

open String (utf8Len)
open String.Pos.Raw (IsValid extract get? utf8GetAux?)

theorem utf8Len_le (text : List Char) : utf8Len text ≤ 4 * text.length := by
  induction text with
  | nil => exact Nat.le_refl 0
  | cons c rest ih =>
      have size := c.utf8Size_le_four
      rw [String.utf8Len_cons, List.length_cons]
      omega

theorem exists_of_utf8Len_le {left right front after : List Char}
    (joined : left ++ right = front ++ after) (shorter : utf8Len left ≤ utf8Len front) :
    ∃ more, front = left ++ more ∧ right = more ++ after := by
  rcases List.append_eq_append_iff.mp joined with ⟨more, split, split'⟩ | ⟨more, split, split'⟩
  · exact ⟨more, split, split'⟩
  · have none : more = [] := by
      rw [split, String.utf8Len_append] at shorter
      exact String.utf8Len_eq_zero.mp (by omega)
    subst none
    exact ⟨[], by simpa using split.symm, by simpa using split'.symm⟩

theorem isValid_iff (text : String) (offset : Nat) :
    IsValid text ⟨offset⟩ ↔ ∃ before after, text.toList = before ++ after ∧
      offset = utf8Len before := by
  rw [String.Pos.Raw.isValid_iff_exists_append]
  constructor
  · rintro ⟨before, after, rfl, position⟩
    refine ⟨before.toList, after.toList, String.toList_append, ?_⟩
    rw [String.utf8Len_toList]
    exact congrArg String.Pos.Raw.byteIdx position
  · rintro ⟨before, after, split, rfl⟩
    refine ⟨String.ofList before, String.ofList after, ?_, ?_⟩
    · rw [← String.ofList_append, ← split, String.ofList_toList]
    · rw [String.rawEndPos_ofList]

theorem extract_of_split {text : String} {before middle after : List Char}
    (split : text.toList = before ++ middle ++ after) :
    extract text ⟨utf8Len before⟩ ⟨utf8Len before + utf8Len middle⟩ = String.ofList middle := by
  rw [← @String.ofList_toList text, split]
  exact String.extract_of_valid before middle after

theorem get?_of_split {text : String} {before after : List Char}
    (split : text.toList = before ++ after) : get? text ⟨utf8Len before⟩ = after.head? := by
  rw [← @String.ofList_toList text, split]
  exact String.get?_of_valid before after

theorem exists_of_utf8GetAux? {text : List Char} {start offset : Nat} {c : Char}
    (found : utf8GetAux? text ⟨start⟩ ⟨offset⟩ = some c) :
    ∃ before after, text = before ++ c :: after ∧ offset = start + utf8Len before := by
  induction text generalizing start with
  | nil => simp [utf8GetAux?] at found
  | cons d rest ih =>
      rw [utf8GetAux?] at found
      split at found
      · rename_i here
        cases found
        exact ⟨[], rest, rfl, (congrArg String.Pos.Raw.byteIdx here).symm⟩
      · obtain ⟨before, after, rfl, position⟩ := ih found
        refine ⟨d :: before, after, rfl, ?_⟩
        calc offset = start + d.utf8Size + utf8Len before := position
          _ = start + utf8Len (d :: before) := by rw [String.utf8Len_cons]; omega

theorem get?_eq_some_iff (text : String) (offset : Nat) (c : Char) :
    get? text ⟨offset⟩ = some c ↔ ∃ before after, text.toList = before ++ c :: after ∧
      offset = utf8Len before := by
  constructor
  · intro found
    obtain ⟨before, after, split, position⟩ := exists_of_utf8GetAux? found
    exact ⟨before, after, split, position.trans (Nat.zero_add _)⟩
  · rintro ⟨before, after, split, rfl⟩
    exact get?_of_split split

end Reckoner.Text
