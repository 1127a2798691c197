import Mathlib.Data.List.DropRight
import Reckoner.Text.Blank

/-!
Theory of trimming. A trimmed text is empty or both starts and ends with a character that is not
blank, so that trimming it once more changes nothing.
-/

namespace Reckoner.Text

theorem trimList_eq (text : List Char) :
    trimList text = (dropBlank text).rdropWhile isBlank :=
  rfl

theorem isBlank_of_head_dropBlank {text rest : List Char} {first : Char}
    (split : dropBlank text = first :: rest) : isBlank first = false := by
  have stops := List.head?_dropWhile_not isBlank text
  rw [← dropBlank, split] at stops
  simpa using stops

theorem dropBlank_cons {first : Char} (solid : isBlank first = false) (rest : List Char) :
    dropBlank (first :: rest) = first :: rest := by
  simp [dropBlank, solid]

theorem dropBlank_eq_self {text : List Char}
    (stops : ∀ first rest, text = first :: rest → isBlank first = false) :
    dropBlank text = text := by
  cases text with
  | nil => rfl
  | cons first rest => exact dropBlank_cons (stops first rest rfl) rest

theorem trimList_eq_self {text : List Char} (solid : ∀ c ∈ text, isBlank c = false) :
    trimList text = text := by
  have start : dropBlank text = text := by
    apply dropBlank_eq_self
    rintro first rest rfl
    exact solid first List.mem_cons_self
  have finish : dropBlank text.reverse = text.reverse := by
    apply dropBlank_eq_self
    intro last rest split
    exact solid last (List.mem_reverse.mp (by simp [split]))
  rw [trimList, start, finish, List.reverse_reverse]

theorem isBlank_of_trimList_eq_cons {text rest : List Char} {first : Char}
    (split : trimList text = first :: rest) : isBlank first = false := by
  have inside : trimList text <+: dropBlank text := by
    rw [trimList_eq]
    exact List.rdropWhile_prefix isBlank _
  obtain ⟨after, joined⟩ := inside
  rw [split, List.cons_append] at joined
  exact isBlank_of_head_dropBlank joined.symm

theorem trimList_eq_nil_iff (text : List Char) :
    trimList text = [] ↔ ∀ c ∈ text, isBlank c = true := by
  rw [trimList_eq, List.rdropWhile_eq_nil_iff]
  constructor
  · intro blank
    have nothing : dropBlank text = [] := by
      cases left : dropBlank text with
      | nil => rfl
      | cons first rest =>
          have solid := isBlank_of_head_dropBlank left
          rw [blank first (by simp [left])] at solid
          contradiction
    exact List.dropWhile_eq_nil_iff.mp nothing
  · intro blank c member
    exact blank c ((List.dropWhile_suffix isBlank).mem member)

theorem trimList_trimList (text : List Char) : trimList (trimList text) = trimList text := by
  have head : dropBlank (trimList text) = trimList text := by
    apply dropBlank_eq_self
    intro first rest split
    exact isBlank_of_trimList_eq_cons split
  calc trimList (trimList text)
      = (trimList text).rdropWhile isBlank := by rw [trimList_eq, head]
    _ = trimList text := by rw [trimList_eq, List.rdropWhile_idempotent]

theorem toList_trim (text : String) : (trim text).toList = trimList text.toList := by
  simp [trim]

theorem trim_trim (text : String) : trim (trim text) = trim text := by
  rw [trim, toList_trim, trimList_trimList, trim]

theorem forall_isBlank_trim_iff (text : String) :
    (∀ c ∈ (trim text).toList, isBlank c = true) ↔ ∀ c ∈ text.toList, isBlank c = true := by
  rw [toList_trim, ← trimList_eq_nil_iff, trimList_trimList, trimList_eq_nil_iff]

theorem isBlank_of_trim_eq_self {text : String} {first : Char} {rest : List Char}
    (trimmed : trim text = text) (split : text.toList = first :: rest) :
    isBlank first = false := by
  have split' : trimList text.toList = first :: rest := by
    rw [← toList_trim, trimmed, split]
  exact isBlank_of_trimList_eq_cons split'

end Reckoner.Text
