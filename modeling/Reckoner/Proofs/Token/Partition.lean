import Reckoner.Proofs.Token.Cut

/-!
The tokens of a text. They partition what is not blank in it, and each of them is told by its text
and its two neighbours. Nothing else than the result of scanning is such a list of tokens.
-/

namespace Reckoner.Token

open Reckoner.Text Reckoner.Alphabet
open String (utf8Len)
open String.Pos.Raw (IsValid extract get?)

def charBefore? (text : String) (token : Token) : Option Char :=
  (extract text 0 ⟨token.position⟩).toList.getLast?

def charAfter? (text : String) (token : Token) : Option Char :=
  get? text ⟨token.stop⟩

/-- The tokens are slices of the text, one behind the other and none empty, and between them are all
the blanks of the text and nothing else. -/
structure Partitions (text : String) (tokens : List Token) : Prop where
  ascending : tokens.Pairwise fun left right => left.position < right.position
  disjoint : tokens.Pairwise fun left right => left.stop ≤ right.position
  filled : ∀ token ∈ tokens, token.text ≠ ""
  start_valid : ∀ token ∈ tokens, IsValid text ⟨token.position⟩
  stop_valid : ∀ token ∈ tokens, IsValid text ⟨token.stop⟩
  slice : ∀ token ∈ tokens, extract text ⟨token.position⟩ ⟨token.stop⟩ = token.text
  outside : ∀ offset c, get? text ⟨offset⟩ = some c →
    (∀ token ∈ tokens, ¬token.Covers offset) → isBlank c = true
  solid : ∀ token ∈ tokens, ∀ c ∈ token.text.toList, isBlank c = false
  joined : String.join (tokens.map (·.text)) =
    String.ofList (text.toList.filter fun c => !isBlank c)

section
variable {text : String} {token : Token} {before after : List Char}

theorem charBefore?_eq (split : text.toList = before ++ token.text.toList ++ after)
    (position : token.position = utf8Len before) : charBefore? text token = before.getLast? := by
  have split' : text.toList = [] ++ before ++ (token.text.toList ++ after) := by
    rw [split, List.nil_append, List.append_assoc]
  have slice := extract_of_split split'
  rw [String.utf8Len_nil, Nat.zero_add, ← position] at slice
  rw [charBefore?, ← @String.toList_ofList before, ← slice]
  rfl

theorem charAfter?_eq (split : text.toList = before ++ token.text.toList ++ after)
    (position : token.position = utf8Len before) : charAfter? text token = after.head? := by
  rw [charAfter?, stop_eq, position, ← String.utf8Len_append]
  exact get?_of_split split

theorem slice_iff :
    IsValid text ⟨token.position⟩ ∧ IsValid text ⟨token.stop⟩ ∧
        extract text ⟨token.position⟩ ⟨token.stop⟩ = token.text ↔
      ∃ before after, text.toList = before ++ token.text.toList ++ after ∧
        token.position = utf8Len before := by
  constructor
  · rintro ⟨startValid, stopValid, slice⟩
    obtain ⟨before, rest, split, start⟩ := (isValid_iff text token.position).mp startValid
    obtain ⟨front, after, split', stop⟩ := (isValid_iff text token.stop).mp stopValid
    have longer : utf8Len before ≤ utf8Len front := by
      rw [← start, ← stop, stop_eq]
      exact Nat.le_add_right _ _
    obtain ⟨middle, rfl, rfl⟩ := exists_of_utf8Len_le (split.symm.trans split') longer
    refine ⟨before, after, ?_, start⟩
    rw [start, stop, String.utf8Len_append, extract_of_split split'] at slice
    rw [split', ← slice, String.toList_ofList]
  · rintro ⟨before, after, split, position⟩
    refine ⟨?_, ?_, ?_⟩
    · exact (isValid_iff text _).mpr ⟨before, token.text.toList ++ after, by simp [split], position⟩
    · refine (isValid_iff text _).mpr ⟨before ++ token.text.toList, after, split, ?_⟩
      rw [stop_eq, position, String.utf8Len_append]
    · rw [stop_eq, position, extract_of_split split, String.ofList_toList]

end

theorem flatMap_scanFrom (position : Nat) (rest : List Char) :
    (scanFrom position rest).flatMap (·.text.toList) = rest.filter fun c => !isBlank c := by
  fun_induction scanFrom position rest with
  | case1 position => rfl
  | case2 position c rest blank ih => simpa [blank] using ih
  | case3 position c rest solid text ih =>
      have unblank : ∀ d ∈ rest.takeWhile (extendsBy c), (!isBlank d) = true := by
        intro d member
        have extended := List.all_eq_true.mp List.all_takeWhile d member
        simp [isBlank_of_extendsBy extended]
      calc text.toList ++ (scanFrom _ (rest.dropWhile (extendsBy c))).flatMap (·.text.toList)
          = c :: rest.takeWhile (extendsBy c) ++
              (rest.dropWhile (extendsBy c)).filter (fun d => !isBlank d) := by
            rw [ih, String.toList_ofList]
        _ = (c :: rest).filter (fun d => !isBlank d) := by
            rw [← List.filter_eq_self.mpr unblank, List.cons_append, ← List.filter_append,
              List.takeWhile_append_dropWhile, List.filter_cons_of_pos (by simpa using solid)]

theorem position_lt_stop {token : Token} (filled : token.text.toList ≠ []) :
    token.position < token.stop := by
  have some : utf8Len token.text.toList ≠ 0 := mt String.utf8Len_eq_zero.mp filled
  rw [stop_eq]
  omega

namespace Cuts

variable {text : String} {tokens : List Token}

theorem joined (cuts : Cuts [] text.toList tokens) :
    String.join (tokens.map (·.text)) = String.ofList (text.toList.filter fun c => !isBlank c) := by
  have same : tokens = scanFrom 0 text.toList := cuts.eq_scanFrom
  rw [← String.toList_inj, String.toList_join, List.flatMap_map, String.toList_ofList, same]
  exact flatMap_scanFrom 0 text.toList

theorem partitions (cuts : Cuts [] text.toList tokens) : Partitions text tokens := by
  have placed (token : Token) (member : token ∈ tokens) := slice_iff.mpr <| by
    obtain ⟨before, after, split, position, _⟩ := cuts.placed token member
    exact ⟨before, after, split, position⟩
  constructor
  case ascending =>
    apply cuts.disjoint.imp_of_mem
    intro left right member _ behind
    exact Nat.lt_of_lt_of_le (position_lt_stop (cuts.filled left member)) behind
  case disjoint => exact cuts.disjoint
  case filled =>
    intro token member empty
    exact cuts.filled token member (by simp [empty])
  case start_valid => exact fun token member => (placed token member).1
  case stop_valid => exact fun token member => (placed token member).2.1
  case slice => exact fun token member => (placed token member).2.2
  case outside =>
    intro offset c found uncovered
    obtain ⟨before, after, split, rfl⟩ := (get?_eq_some_iff text offset c).mp found
    exact cuts.outside before c after split uncovered
  case solid => exact cuts.solid
  case joined => exact cuts.joined

theorem munched (cuts : Cuts [] text.toList tokens) :
    ∀ token ∈ tokens, Munched (charBefore? text token) (charAfter? text token) token := by
  intro token member
  obtain ⟨before, after, split, position, munched⟩ := cuts.placed token member
  rw [charBefore?_eq split position, charAfter?_eq split position]
  exact munched

end Cuts

theorem Partitions.cuts {text : String} {tokens : List Token} (partitions : Partitions text tokens)
    (munched : ∀ token ∈ tokens, Munched (charBefore? text token) (charAfter? text token) token) :
    Cuts [] text.toList tokens := by
  constructor
  case disjoint => exact partitions.disjoint
  case filled => simpa using partitions.filled
  case solid => exact partitions.solid
  case placed =>
    intro token member
    obtain ⟨before, after, split, position⟩ := slice_iff.mp
      ⟨partitions.start_valid token member, partitions.stop_valid token member,
        partitions.slice token member⟩
    refine ⟨before, after, split, position, ?_⟩
    rw [List.nil_append, ← charBefore?_eq split position, ← charAfter?_eq split position]
    exact munched token member
  case outside =>
    intro front c after split uncovered
    exact partitions.outside (utf8Len front) c
      ((get?_eq_some_iff text _ c).mpr ⟨front, after, split, rfl⟩) uncovered

theorem scan_cuts (text : String) : Cuts [] text.toList (scan text) :=
  scanFrom_cuts 0 text.toList [] rfl (by simp)

theorem position_le_of_mem_scan {text : String} {token : Token} (member : token ∈ scan text) :
    token.position ≤ 4 * text.toList.length := by
  obtain ⟨before, after, split, position, _⟩ := (scan_cuts text).placed token member
  rw [List.nil_append] at position
  calc token.position
      = utf8Len before := position
    _ ≤ 4 * before.length := utf8Len_le before
    _ ≤ 4 * text.toList.length := by
      rw [split, List.append_assoc, List.length_append]
      omega

theorem scan_partitions (text : String) : Partitions text (scan text) :=
  (scan_cuts text).partitions

/-- A list of tokens is the result of scanning just if it partitions the text and each token has the
kind of its text and could not have been longer. -/
theorem eq_scan_iff (text : String) (tokens : List Token) :
    tokens = scan text ↔ Partitions text tokens ∧
      ∀ token ∈ tokens, Munched (charBefore? text token) (charAfter? text token) token := by
  constructor
  · rintro rfl
    exact ⟨(scan_cuts text).partitions, (scan_cuts text).munched⟩
  · rintro ⟨partitions, munched⟩
    exact (partitions.cuts munched).eq_scanFrom

end Reckoner.Token
