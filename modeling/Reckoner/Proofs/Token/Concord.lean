import Reckoner.Proofs.Token.Partition
import Reckoner.Proofs.Validity

/-!
Validity and scanning see a text alike, though one goes by characters and the other by runs. What is
not in the alphabet becomes a token of its own, and so does every parenthesis: no run takes in
either, and neither is skipped. Of a valid text only commas and some points are left without a
class.
-/

namespace Reckoner.Token

open Reckoner.Text Reckoner.Alphabet
open String (utf8Len)

def parentheses (tokens : List Token) : List Token :=
  tokens.filter (·.kind == .parenthesis)

structure Balanced (tokens : List Token) : Prop where
  never_below : ∀ read, read <+: tokens →
    read.countP (·.isParen ')') ≤ read.countP (·.isParen '(')
  level : tokens.countP (·.isParen ')') = tokens.countP (·.isParen '(')

/-- The text ends in digits and points that belong to one number, so that a point behind it would go
on with that number. -/
def EndsInNumeral (text : List Char) : Prop :=
  ∃ front numeral, text = front ++ numeral ∧ IsNumeral numeral

def parenthesis? (token : Token) : Option Char :=
  if token.kind = .parenthesis then token.text.toList.head? else none

theorem isParen_eq (token : Token) (paren : Char) :
    token.isParen paren = (token.parenthesis? == some paren) := by
  unfold isParen parenthesis?
  cases token.kind <;> simp

section
variable {previous next : Option Char} {token : Token}

theorem Munched.exists_symbol (munched : Munched previous next token)
    (noNumber : token.kind ≠ .number)
    (noWord : ¬(token.kind = .function ∨ token.kind = .variable)) :
    ∃ c, token.text.toList = [c] ∧ isDigit c = false ∧ isLetter c = false ∧
      (token.kind = .parenthesis ↔ c ∈ ['(', ')']) ∧
      (token.kind = .unknown ↔ c ∉ ['+', '-', '*', '/', '^', '(', ')', 'π']) := by
  obtain ⟨noFunction, noVariable⟩ := not_or.mp noWord
  obtain ⟨c, single, -, parenthesis, -, unknown⟩ :=
    munched.symbol (by simp [noNumber, noFunction, noVariable])
  have noNumeral := mt munched.number_iff.mpr noNumber
  have noLetters := mt munched.word_iff.mpr noWord
  rw [single, isNumeral_cons_iff] at noNumeral
  rw [single, isWord_cons_iff] at noLetters
  exact ⟨c, single, by simpa using noNumeral, by simpa using noLetters, parenthesis, unknown⟩

theorem Munched.numeral (munched : Munched previous next token) (number : token.kind = .number) :
    ∀ c ∈ token.text.toList, isDigit c = true ∨ isPoint c = true := by
  obtain ⟨first, rest, text, digit, run⟩ := munched.number_iff.mp number
  rw [text]
  exact List.forall_mem_cons.mpr ⟨Or.inl digit, run⟩

theorem Munched.word (munched : Munched previous next token)
    (word : token.kind = .function ∨ token.kind = .variable) :
    ∀ c ∈ token.text.toList, isLetter c = true :=
  (munched.word_iff.mp word).2

theorem Munched.all_isAllowed_iff (munched : Munched previous next token)
    (solid : ∀ c ∈ token.text.toList, isBlank c = false) :
    token.text.toList.all isAllowed = true ↔
      (token.kind = .unknown → token.text = "." ∨ token.text = ",") := by
  by_cases number : token.kind = .number
  · have allowed : token.text.toList.all isAllowed = true := by
      rw [List.all_eq_true]
      intro c member
      rcases munched.numeral number c member with digit | point
      · simp [isAllowed, digit]
      · simp [isAllowed, show c = '.' by simpa [isPoint] using point]
    simp [allowed, number]
  by_cases word : token.kind = .function ∨ token.kind = .variable
  · have allowed : token.text.toList.all isAllowed = true := by
      rw [List.all_eq_true]
      intro c member
      simp [isAllowed, munched.word word c member]
    rcases word with word | word <;> simp [allowed, word]
  obtain ⟨c, single, digit, letter, -, unknown⟩ := munched.exists_symbol number word
  have blank : isBlank c = false := solid c (by simp [single])
  have noE : c ≠ 'e' := by
    rintro rfl
    contradiction
  have point_iff : token.text = "." ↔ c = '.' := by
    rw [← String.toList_inj, single]
    simp
  have comma_iff : token.text = "," ↔ c = ',' := by
    rw [← String.toList_inj, single]
    simp
  rw [single, unknown, point_iff, comma_iff]
  simp [isAllowed, isOperator, isParenthesis, isConstant, digit, letter, blank, noE]
  grind

theorem Munched.filter_isParenthesis (munched : Munched previous next token) :
    token.text.toList.filter isParenthesis = token.parenthesis?.toList := by
  by_cases number : token.kind = .number
  · rw [parenthesis?, if_neg (by simp [number]), Option.toList_none, List.filter_eq_nil_iff]
    intro c member parenthesis
    obtain ⟨digit, -, point, -⟩ := classes_of_isParenthesis parenthesis
    simpa [digit, point] using munched.numeral number c member
  by_cases word : token.kind = .function ∨ token.kind = .variable
  · have other : token.kind ≠ .parenthesis := by
      rcases word with word | word <;> simp [word]
    rw [parenthesis?, if_neg other, Option.toList_none, List.filter_eq_nil_iff]
    intro c member parenthesis
    obtain ⟨-, letter, -⟩ := classes_of_isParenthesis parenthesis
    simpa [letter] using munched.word word c member
  obtain ⟨c, single, -, -, parenthesis, -⟩ := munched.exists_symbol number word
  have same : isParenthesis c = true ↔ token.kind = .parenthesis := by
    rw [parenthesis]
    simp [isParenthesis]
  by_cases is : token.kind = .parenthesis
  · simp [parenthesis?, single, is, same.mpr is]
  · simp [parenthesis?, single, is, mt same.mp is]

end

section
variable (text : String)

theorem flatMap_scan : (scan text).flatMap (·.text.toList) = text.toList.filter (!isBlank ·) :=
  flatMap_scanFrom 0 text.toList

theorem all_isAllowed_iff :
    text.toList.all isAllowed = true ↔
      ∀ token ∈ scan text, token.kind = .unknown → token.text = "." ∨ token.text = "," := by
  have blanks : ∀ c, (isAllowed c = true) ↔ (isBlank c = true ∨ isAllowed c = true) := by
    intro c
    refine ⟨Or.inr, ?_⟩
    rintro (blank | allowed)
    · simp [isAllowed, blank]
    · exact allowed
  calc text.toList.all isAllowed = true
      ↔ (text.toList.filter (!isBlank ·)).all isAllowed = true := by
        simp only [List.all_filter, List.all_eq_true, Bool.not_not, Bool.or_eq_true, ← blanks]
    _ ↔ ∀ token ∈ scan text, token.text.toList.all isAllowed = true := by
        rw [← flatMap_scan, List.all_flatMap, List.all_eq_true]
    _ ↔ _ := by
        refine forall₂_congr fun token member => ?_
        exact ((scan_cuts text).munched token member).all_isAllowed_iff
          ((scan_cuts text).solid token member)

theorem filter_isParenthesis :
    text.toList.filter isParenthesis = (parentheses (scan text)).filterMap parenthesis? := by
  have unblank : ∀ c, isParenthesis c = (isParenthesis c && !isBlank c) := by
    intro c
    cases parenthesis : isParenthesis c with
    | true => simp [(classes_of_isParenthesis parenthesis).2.2.2]
    | false => rfl
  have only : ∀ token : Token,
      (if (token.kind == .parenthesis) = true then token.parenthesis? else none) =
        token.parenthesis? := by
    intro token
    unfold parenthesis?
    cases token.kind <;> simp
  calc text.toList.filter isParenthesis
      = (text.toList.filter (!isBlank ·)).filter isParenthesis := by
        rw [List.filter_filter]
        exact List.filter_congr fun c _ => unblank c
    _ = (scan text).flatMap fun token => token.text.toList.filter isParenthesis := by
        rw [← flatMap_scan, List.filter_flatMap]
    _ = (scan text).flatMap fun token => token.parenthesis?.toList :=
        List.flatMap_congr fun token member =>
          ((scan_cuts text).munched token member).filter_isParenthesis
    _ = (parentheses (scan text)).filterMap parenthesis? := by
        rw [parentheses, List.filterMap_filter, List.filterMap_eq_flatMap_toList]
        simp only [only]

theorem count_parenthesis? (paren : Char) (tokens : List Token) :
    (tokens.filterMap parenthesis?).count paren = tokens.countP (·.isParen paren) := by
  simp only [List.count_filterMap, isParen_eq]

theorem countP_parentheses (paren : Char) (tokens : List Token) :
    (parentheses tokens).countP (·.isParen paren) = tokens.countP (·.isParen paren) := by
  rw [parentheses, List.countP_filter]
  refine List.countP_congr fun token _ => ?_
  simp +contextual [isParen]

theorem isBalanced_iff_balanced :
    Validity.isBalanced text.toList = true ↔ Balanced (parentheses (scan text)) := by
  have filtered : Validity.isBalanced text.toList =
      Validity.isBalanced (text.toList.filter isParenthesis) := by
    simp only [Validity.isBalanced, Validity.depthAfter?_filter]
  rw [filtered, filter_isParenthesis, Validity.isBalanced_iff_count]
  constructor
  · rintro ⟨never, level⟩
    constructor
    case never_below =>
      intro read inside
      simpa only [count_parenthesis?] using never _ (inside.filterMap parenthesis?)
    case level => simpa only [count_parenthesis?] using level
  · intro balanced
    constructor
    · intro read inside
      obtain ⟨tokens, start, rfl⟩ := List.prefix_filterMap_iff.mp inside
      simpa only [count_parenthesis?] using balanced.never_below tokens start
    · simpa only [count_parenthesis?] using balanced.level

end

namespace Cuts

variable {before rest front after : List Char} {tokens : List Token} {c : Char}

theorem around (cuts : Cuts before rest tokens) (split : rest = front ++ c :: after) {token : Token}
    (member : token ∈ tokens) (covers : token.Covers (utf8Len (before ++ front))) :
    ∃ start left right later, front = start ++ left ∧ token.text.toList = left ++ c :: right ∧
      after = right ++ later ∧ token.position = utf8Len (before ++ start) ∧
        Munched (before ++ start).getLast? later.head? token := by
  obtain ⟨start, later, split', position, munched⟩ := cuts.placed token member
  obtain ⟨lower, upper⟩ := covers
  rw [stop_eq, position] at upper
  rw [position] at lower
  simp only [String.utf8Len_append] at lower upper
  rw [split, List.append_assoc] at split'
  obtain ⟨left, rfl, inside⟩ := exists_of_utf8Len_le split'.symm (by omega)
  rw [String.utf8Len_append] at upper
  obtain ⟨more, text, ahead⟩ := exists_of_utf8Len_le inside.symm (by omega)
  cases more with
  | nil =>
      rw [text, List.append_nil] at upper
      omega
  | cons d right =>
      rw [List.cons_append, List.cons.injEq] at ahead
      obtain ⟨rfl, rfl⟩ := ahead
      exact ⟨start, left, right, later, rfl, text, rfl, position, munched⟩

theorem exists_covers (cuts : Cuts before rest tokens) (split : rest = front ++ c :: after)
    (solid : isBlank c = false) : ∃ token ∈ tokens, token.Covers (utf8Len (before ++ front)) := by
  apply Classical.byContradiction
  intro uncovered
  have blank := cuts.outside front c after split fun token member covers =>
    uncovered ⟨token, member, covers⟩
  rw [solid] at blank
  contradiction

theorem eq_of_covers (cuts : Cuts before rest tokens) {offset : Nat} {token other : Token}
    (member : token ∈ tokens) (member' : other ∈ tokens) (covers : token.Covers offset)
    (covers' : other.Covers offset) : token = other := by
  obtain ⟨lower, upper⟩ := covers
  obtain ⟨lower', upper'⟩ := covers'
  obtain ⟨i, boundLeft, rfl⟩ := List.mem_iff_getElem.mp member
  obtain ⟨j, boundRight, rfl⟩ := List.mem_iff_getElem.mp member'
  have disjoint := List.pairwise_iff_getElem.mp cuts.disjoint
  rcases Nat.lt_trichotomy i j with less | same | greater
  · have behind := disjoint i j boundLeft boundRight less
    omega
  · simp only [same]
  · have behind := disjoint j i boundRight boundLeft greater
    omega

end Cuts

section
variable {previous next : Option Char} {token : Token} {c : Char}

theorem Munched.number_of_mem (munched : Munched previous next token)
    (member : c ∈ token.text.toList) (digit : isDigit c = true) : token.kind = .number := by
  apply Decidable.byContradiction
  intro number
  by_cases word : token.kind = .function ∨ token.kind = .variable
  · have letter := munched.word word c member
    rw [isLetter_of_isDigit digit] at letter
    contradiction
  · obtain ⟨d, single, noDigit, -⟩ := munched.exists_symbol number word
    have same : c = d := by simpa [single] using member
    rw [← same, digit] at noDigit
    contradiction

theorem Munched.unknown_of_mem (munched : Munched previous next token)
    (member : c ∈ token.text.toList) (mark : c = '.' ∨ c = ',') (number : token.kind ≠ .number) :
    token.kind = .unknown := by
  by_cases word : token.kind = .function ∨ token.kind = .variable
  · have letter := munched.word word c member
    rcases mark with rfl | rfl <;> contradiction
  · obtain ⟨d, single, -, -, -, unknown⟩ := munched.exists_symbol number word
    have same : c = d := by simpa [single] using member
    rw [unknown, ← same]
    rcases mark with rfl | rfl <;> decide

end

section
variable {text : String} {before after : List Char}

theorem exists_number (split : text.toList = before ++ '.' :: after)
    (numeral : EndsInNumeral before) :
    ∃ token ∈ scan text, token.kind = .number ∧ token.Covers (utf8Len before) := by
  obtain ⟨front, _, rfl, digit, run, rfl, isDigit, extended⟩ := numeral
  have split' : text.toList = front ++ digit :: (run ++ '.' :: after) := by simp [split]
  obtain ⟨token, member, covers⟩ :=
    (scan_cuts text).exists_covers split' (isBlank_of_isDigit isDigit)
  obtain ⟨start, left, right, later, rfl, spelled, joined, position, munched⟩ :=
    (scan_cuts text).around split' member covers
  have number := munched.number_of_mem (c := digit) (by simp [spelled]) isDigit
  have stops := munched.number_stops number
  obtain ⟨more, rfl⟩ : ∃ more, right = run ++ '.' :: more := by
    rcases List.append_eq_append_iff.mp joined with ⟨more, same, ahead⟩ | ⟨more, same, ahead⟩
    · cases more with
      | nil =>
          obtain rfl : later = '.' :: after := ahead.symm
          simpa [isPoint] using stops '.' rfl
      | cons c more =>
          cases ahead
          exact ⟨more, same⟩
    · cases more with
      | nil => simpa [isPoint] using stops '.' (by simp [ahead])
      | cons c more =>
          have stop := stops c (by simp [ahead])
          have goesOn := extended c (by simp [same])
          simp [stop] at goesOn
  refine ⟨token, member, number, ?_, ?_⟩
  · rw [position, List.nil_append, List.append_assoc, String.utf8Len_append]
    exact Nat.le_add_right _ _
  · have some := Char.utf8Size_pos '.'
    rw [stop_eq, position, spelled, List.nil_append]
    simp only [String.utf8Len_append, String.utf8Len_cons]
    omega

theorem exists_unknown {c : Char} (split : text.toList = before ++ c :: after)
    (mark : c = ',' ∨ c = '.' ∧ ¬EndsInNumeral before) :
    ∃ token ∈ scan text, token.kind = .unknown ∧ token.Covers (utf8Len before) := by
  have either : c = '.' ∨ c = ',' := mark.symm.imp_left And.left
  have solid : isBlank c = false := by rcases either with rfl | rfl <;> decide
  obtain ⟨token, member, covers⟩ := (scan_cuts text).exists_covers split solid
  obtain ⟨start, left, right, later, rfl, spelled, -, -, munched⟩ :=
    (scan_cuts text).around split member covers
  refine ⟨token, member, munched.unknown_of_mem (by simp [spelled]) either ?_, covers⟩
  intro number
  obtain ⟨first, run, text', digit, extended⟩ := munched.number_iff.mp number
  rw [spelled] at text'
  rcases mark with rfl | ⟨rfl, noNumeral⟩
  · have numeral := munched.numeral number ',' (by simp [spelled])
    simp [show isDigit ',' = false by decide, isPoint] at numeral
  · cases left with
    | nil =>
        cases text'
        contradiction
    | cons c left =>
        cases text'
        exact noNumeral ⟨start, first :: left, rfl, first, left, rfl, digit, fun d inside =>
          extended d (List.mem_append_left _ inside)⟩

theorem exists_unknown_iff {c : Char} (allowed : text.toList.all isAllowed = true)
    (split : text.toList = before ++ c :: after) :
    (∃ token ∈ scan text, token.kind = .unknown ∧ token.Covers (utf8Len before)) ↔
      c = ',' ∨ c = '.' ∧ ¬EndsInNumeral before := by
  constructor
  · rintro ⟨token, member, unknown, covers⟩
    obtain ⟨start, left, right, later, rfl, spelled, -, -, munched⟩ :=
      (scan_cuts text).around split member covers
    have inside : c ∈ token.text.toList := by simp [spelled]
    rcases (all_isAllowed_iff text).mp allowed token member unknown with point | comma
    · have same : c = '.' := by simpa [point] using inside
      subst same
      refine Or.inr ⟨rfl, fun numeral => ?_⟩
      obtain ⟨other, member', number, covers'⟩ := exists_number split numeral
      have same := (scan_cuts text).eq_of_covers member member' covers covers'
      rw [same, number] at unknown
      contradiction
    · exact Or.inl (by simpa [comma] using inside)
  · exact exists_unknown split

end

/-- What validity and scanning say of one text. -/
structure Concord (text : String) : Prop where
  allowed_iff : text.toList.all isAllowed = true ↔
    ∀ token ∈ scan text, token.kind = .unknown → token.text = "." ∨ token.text = ","
  balanced_iff : Validity.isBalanced text.toList = true ↔ Balanced (parentheses (scan text))
  unknown_iff : Validity.check text.toList = .ok () →
    ∀ before c after, text.toList = before ++ c :: after →
      ((∃ token ∈ scan text, token.kind = .unknown ∧ token.Covers (utf8Len before)) ↔
        c = ',' ∨ c = '.' ∧ ¬EndsInNumeral before)

/-- A text is in the alphabet if scanning knows all of it but points and commas, and it is balanced
if its tokens are. In a valid text, only commas and points that do not go on with a number are
unknown. -/
theorem scan_concord (text : String) : Concord text := by
  constructor
  case allowed_iff => exact all_isAllowed_iff text
  case balanced_iff => exact isBalanced_iff_balanced text
  case unknown_iff =>
    intro sound before c after split
    have allowed := ((Validity.answers text.toList).ok_iff.mp sound).2.2.1
    exact exists_unknown_iff (List.all_eq_true.mpr allowed) split

end Reckoner.Token
