import Reckoner.Proofs.Record.Term
import Reckoner.Proofs.Term.Number
import Reckoner.Proofs.Token.Partition

/-!
The text of a term is read as the term again, at other places. Its names are cut as they were,
because a parenthesis stands behind each, and its number is found again in the number's own text.
-/

namespace Reckoner.Term

open Reckoner.Alphabet Reckoner.Decimal Reckoner.Token
open String (utf8Len)

mutual

def unplaced : Term → Term
  | .number value _ => .number value 0
  | .variable name _ => .variable name 0
  | .call name arguments _ => .call name (unplacedAll arguments) 0

def unplacedAll : List Term → List Term
  | [] => []
  | term :: rest => term.unplaced :: unplacedAll rest

end

mutual

theorem display_unplaced : ∀ term : Term, term.unplaced.display = term.display
  | .number _ _ => rfl
  | .variable _ _ => rfl
  | .call _ arguments _ => by rw [unplaced, display, display, displayAll_unplacedAll arguments]

theorem displayAll_unplacedAll : ∀ terms : List Term,
    displayAll (unplacedAll terms) = displayAll terms
  | [] => rfl
  | [term] => by
      simp only [unplacedAll, displayAll]
      exact display_unplaced term
  | term :: next :: rest => by
      have first := display_unplaced term
      have later := displayAll_unplacedAll (next :: rest)
      simp only [unplacedAll, displayAll] at later ⊢
      rw [first, later]

end

theorem numbers_nested (openings : List Opening) (leaf : Term) :
    (nested openings leaf).numbers = leaf.numbers := by
  induction openings with
  | nil => rfl
  | cons opening openings ih =>
      change (nested openings leaf).numbers ++ [] = leaf.numbers
      rw [List.append_nil, ih]

theorem toList_display_nested (opening : Opening) (openings : List Opening) (leaf : Term) :
    (nested (opening :: openings) leaf).display.toList =
      opening.name.text.toList ++ '(' :: ((nested openings leaf).display.toList ++ [')']) := by
  change (opening.name.text ++ "(" ++ (nested openings leaf).display ++ ")").toList = _
  simp only [String.toList_append, List.append_assoc]
  rfl

def StartsParenthesis (text : List Char) : Prop :=
  ∀ c, text.head? = some c → isParenthesis c = true

theorem StartsParenthesis.extendsBy {text : List Char} (starts : StartsParenthesis text)
    (first : Char) : ∀ c, text.head? = some c → Token.extendsBy first c = false := by
  intro c head
  obtain ⟨noDigit, noLetter, noPoint, -⟩ := classes_of_isParenthesis (starts c head)
  simp [Token.extendsBy, noDigit, noLetter, noPoint]

theorem scanFrom_token {token : Token} {previous next : Option Char}
    (munched : Munched previous next token) {first : Char} {run : List Char}
    (text : token.text.toList = first :: run) (solid : Text.isBlank first = false)
    {after : List Char} (starts : StartsParenthesis after) (position : Nat) :
    scanFrom position (token.text.toList ++ after) = { token with position } ::
      scanFrom (position + utf8Len token.text.toList) after := by
  obtain ⟨kind, extended, -⟩ := (munched_iff text).mp munched
  have spelled : token.text = String.ofList (first :: run) := by rw [← text, String.ofList_toList]
  rw [text, scanFrom_run solid extended (starts.extendsBy first), ← spelled, ← kind]

theorem scanFrom_word {token : Token} {previous next : Option Char}
    (munched : Munched previous next token)
    (named : token.kind = .function ∨ token.kind = .variable)
    {after : List Char} (starts : StartsParenthesis after) (position : Nat) :
    scanFrom position (token.text.toList ++ after) = { token with position } ::
      scanFrom (position + utf8Len token.text.toList) after := by
  obtain ⟨filled, letters⟩ := munched.word_iff.mp named
  obtain ⟨first, run, text⟩ := List.exists_cons_of_ne_nil filled
  have solid := isBlank_of_isLetter (letters first (by simp [text]))
  exact scanFrom_token munched text solid starts position

theorem scanFrom_numeral {text : String} (numeral : IsNumeral text.toList) {after : List Char}
    (starts : StartsParenthesis after) (position : Nat) :
    scanFrom position (text.toList ++ after) = ⟨.number, text, position⟩ ::
      scanFrom (position + utf8Len text.toList) after := by
  obtain ⟨first, run, spelled, digit, classes⟩ := numeral
  have munched : Munched none none ⟨.number, text, position⟩ :=
    (munched_iff_of_digit spelled digit).mpr ⟨rfl, classes, by simp⟩
  exact scanFrom_token munched spelled (isBlank_of_isDigit digit) starts position

/-- Whether a term is read again from its text wherever it stands, if only a parenthesis follows. -/
def Legible (term : Term) : Prop :=
  ∀ position after, StartsParenthesis after → ∃ again,
    ofTokens (scanFrom position (term.display.toList ++ after)) = .ok again ∧
      again.unplaced = term.unplaced

theorem legible_leaf {token : Token} {previous next : Option Char}
    (munched : Munched previous next token) {leaf : Term} (found : leaf? token = some leaf)
    (finite : ∀ value ∈ leaf.numbers, value.isFinite = true) : leaf.Legible := by
  intro position after starts
  unfold leaf? at found
  split at found
  · rename_i number
    cases found
    have sign := isNegative_leadingNumber (munched.number_iff.mp number)
    obtain ⟨numeral, read⟩ := leadingNumber_plainText (finite _ (by simp [numbers])) sign
    refine ⟨.number (leadingNumber token.text) position, ?_, rfl⟩
    rw [display, scanFrom_numeral numeral starts]
    simp [ofTokens, read]
  · rename_i kind
    cases found
    refine ⟨.variable token.text position, ?_, rfl⟩
    rw [display, scanFrom_word munched (Or.inr kind) starts]
    simp [ofTokens, kind]
  · contradiction

theorem scanFrom_opening (position : Nat) (after : List Char) :
    scanFrom position ('(' :: after) =
      ⟨.parenthesis, "(", position⟩ :: scanFrom (position + 1) after := by
  have single : ∀ c ∈ ([] : List Char), extendsBy '(' c = true := by simp
  exact scanFrom_run rfl single (fun _ _ => rfl) position

theorem Legible.call {opening : Opening} {previous next : Option Char}
    (munched : Munched previous next opening.name) {openings : List Opening} {leaf : Term}
    (legible : (nested openings leaf).Legible) : (nested (opening :: openings) leaf).Legible := by
  intro position after starts
  have closes : StartsParenthesis (')' :: after) := by
    intro c head
    cases head
    rfl
  have opens :
      StartsParenthesis ('(' :: ((nested openings leaf).display.toList ++ ')' :: after)) := by
    intro c head
    cases head
    rfl
  obtain ⟨argument, read, same⟩ := legible
    (position + utf8Len opening.name.text.toList + 1) (')' :: after) closes
  have isOpen : (⟨.parenthesis, "(", position + utf8Len opening.name.text.toList⟩ : Token).isParen
      '(' = true := by
    simp [Token.isParen]
  refine ⟨.call opening.name.text [argument] position, ?_, ?_⟩
  · rw [toList_display_nested]
    have joined : opening.name.text.toList ++
        '(' :: ((nested openings leaf).display.toList ++ [')']) ++ after =
          opening.name.text.toList ++
            '(' :: ((nested openings leaf).display.toList ++ ')' :: after) := by simp
    rw [joined, scanFrom_word munched (Or.inl opening.isFunction) opens, scanFrom_opening,
      ofTokens_opening ⟨{ opening.name with position }, _, opening.isFunction, isOpen⟩, read]
    rfl
  · simp [unplaced, unplacedAll, same, nested, Opening.call]

theorem legible_nested {openings : List Opening}
    (munched : ∀ opening ∈ openings, ∃ previous next, Munched previous next opening.name)
    {leaf : Term} (legible : leaf.Legible) : (nested openings leaf).Legible := by
  induction openings with
  | nil => exact legible
  | cons opening openings ih =>
      obtain ⟨⟨previous, next, first⟩, later⟩ := List.forall_mem_cons.mp munched
      exact (ih later).call first

/-- The text of a term that was read is read as the same tree. -/
theorem parse_display (text : String) (term : Term) (read : parse (scan text) = .ok (some term))
    (finite : ∀ value ∈ term.numbers, value.isFinite = true) :
    ∃ again, parse (scan term.display) = .ok (some again) ∧ again.unplaced = term.unplaced ∧
      again.display = term.display := by
  obtain ⟨openings, rest, split, -, reads⟩ := exists_reads (scan text)
  obtain ⟨token, leaf, head, found, rfl⟩ := (reads.some_iff term).mp read
  obtain ⟨tokens, rfl⟩ := List.head?_eq_some_iff.mp head
  have munched : ∀ token ∈ scan text, ∃ previous next, Munched previous next token :=
    fun token member => ⟨_, _, (scan_cuts text).munched token member⟩
  rw [split] at munched
  obtain ⟨previous, next, last⟩ := munched token (by simp)
  rw [numbers_nested] at finite
  have legible : (nested openings leaf).Legible := by
    apply legible_nested _ (legible_leaf last found finite)
    intro opening member
    apply munched
    exact List.mem_append_left _ (List.mem_flatMap.mpr ⟨opening, member, by simp [Opening.tokens]⟩)
  obtain ⟨again, read, same⟩ := legible 0 [] (by simp [StartsParenthesis])
  rw [List.append_nil] at read
  refine ⟨again, parse_of_ofTokens read, same, ?_⟩
  rw [← display_unplaced again, same, display_unplaced]

theorem leadingNumber_two_points : leadingNumber "1.2.3" = 1.2 := by
  decide +kernel

theorem parse_display_two_points :
    parse (scan "Ln ( 1.2.3)") = .ok (some (.call "Ln" [.number 1.2 5] 0)) ∧
      ∃ again, parse (scan (Term.call "Ln" [.number 1.2 5] 0).display) = .ok (some again) ∧
        again.unplaced = (Term.call "Ln" [.number 1.2 5] 0).unplaced ∧
          again.display = (Term.call "Ln" [.number 1.2 5] 0).display := by
  have read : parse (scan "Ln ( 1.2.3)") = .ok (some (.call "Ln" [.number 1.2 5] 0)) := by
    have text : "Ln ( 1.2.3)".toList =
        'L' :: ['n'] ++ (' ' :: ('(' :: [] ++ (' ' :: ('1' :: ['.', '2', '.', '3'] ++
          (')' :: [] ++ []))))) := by decide
    rw [scan, text, scanFrom_run rfl (List.all_eq_true.mp rfl) (by simp; decide),
      scanFrom_blank rfl, scanFrom_run rfl (by simp) (fun _ _ => rfl), scanFrom_blank rfl,
      scanFrom_run rfl (List.all_eq_true.mp rfl) (by simp; decide),
      scanFrom_run rfl (by simp) (by simp), scanFrom_nil, ← leadingNumber_two_points]
    rfl
  have finite : ∀ value ∈ (Term.call "Ln" [.number 1.2 5] 0).numbers, value.isFinite = true := by
    simp [numbers, numbersOfAll]
    decide +kernel
  exact ⟨read, parse_display _ _ read finite⟩

end Reckoner.Term
