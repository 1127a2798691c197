import Reckoner.Proofs.Alphabet
import Reckoner.Token.Scan

/-!
Theory of single tokens. What a token is can be told from its text and from the two characters that
stand around it. The rule by which scanning forms a token from its first character says the same.
-/

namespace Reckoner.Token

open Reckoner.Text Reckoner.Alphabet

def IsNumeral (text : List Char) : Prop :=
  ∃ first rest, text = first :: rest ∧ isDigit first = true ∧
    ∀ c ∈ rest, isDigit c = true ∨ isPoint c = true

def IsWord (text : List Char) : Prop :=
  text ≠ [] ∧ ∀ c ∈ text, isLetter c = true

/-- The token has the kind of its text, and it takes in all that it can of the text around it, where
`previous` and `next` stand. -/
structure Munched (previous next : Option Char) (token : Token) : Prop where
  number_iff : token.kind = .number ↔ IsNumeral token.text.toList
  number_stops : token.kind = .number →
    ∀ c, next = some c → isDigit c = false ∧ isPoint c = false
  word_iff : token.kind = .function ∨ token.kind = .variable ↔ IsWord token.text.toList
  word_starts : token.kind = .function ∨ token.kind = .variable →
    ∀ c, previous = some c → isLetter c = false
  word_stops : token.kind = .function ∨ token.kind = .variable →
    ∀ c, next = some c → isLetter c = false
  function_iff : token.kind = .function ↔
    String.ofList (token.text.toList.map Char.toLower) ∈ functionNames
  symbol : token.kind ∉ [.number, .function, .variable] →
    ∃ c, token.text.toList = [c] ∧
      (token.kind = .operator ↔ c ∈ ['+', '-', '*', '/', '^']) ∧
      (token.kind = .parenthesis ↔ c ∈ ['(', ')']) ∧
      (token.kind = .constant ↔ c = 'π') ∧
      (token.kind = .unknown ↔ c ∉ ['+', '-', '*', '/', '^', '(', ')', 'π'])

theorem isNumeral_cons_iff (first : Char) (rest : List Char) :
    IsNumeral (first :: rest) ↔
      isDigit first = true ∧ ∀ c ∈ rest, isDigit c = true ∨ isPoint c = true := by
  constructor
  · rintro ⟨_, _, same, numeral⟩
    cases same
    exact numeral
  · intro numeral
    exact ⟨first, rest, rfl, numeral⟩

theorem isWord_cons_iff (first : Char) (rest : List Char) :
    IsWord (first :: rest) ↔ isLetter first = true ∧ ∀ c ∈ rest, isLetter c = true := by
  simp [IsWord]

theorem not_isNumeral_cons {first : Char} (noDigit : isDigit first = false) (rest : List Char) :
    ¬IsNumeral (first :: rest) := by
  rw [isNumeral_cons_iff, noDigit]
  exact fun numeral => Bool.noConfusion numeral.1

theorem not_isWord_cons {first : Char} (noLetter : isLetter first = false) (rest : List Char) :
    ¬IsWord (first :: rest) := by
  rw [isWord_cons_iff, noLetter]
  exact fun word => Bool.noConfusion word.1

theorem isFunctionName_iff (text : String) :
    isFunctionName text = true ↔ String.ofList (text.toList.map Char.toLower) ∈ functionNames := by
  simp [isFunctionName]

theorem isWord_of_functionName {text : List Char}
    (named : String.ofList (text.map Char.toLower) ∈ functionNames) : IsWord text := by
  have letters : ∀ name ∈ functionNames, name ≠ "" ∧ name.toList.all isLetter = true := by
    decide
  obtain ⟨filled, lower⟩ := letters _ named
  constructor
  · rintro rfl
    exact filled rfl
  · intro c member
    rw [← isLetter_toLower]
    exact List.all_eq_true.mp lower c.toLower (by simpa using List.mem_map_of_mem member)

theorem isBlank_of_extendsBy {first next : Char} (extended : extendsBy first next = true) :
    isBlank next = false := by
  unfold extendsBy at extended
  split at extended
  · rcases Bool.or_eq_true_iff.mp extended with digit | point
    · exact isBlank_of_isDigit digit
    · exact isBlank_of_isPoint point
  · exact isBlank_of_isLetter (Bool.and_eq_true_iff.mp extended).2

theorem isLetter_of_extendsBy {first next : Char} (extended : extendsBy first next = true)
    (letter : isLetter next = true) : isLetter first = true := by
  unfold extendsBy at extended
  split at extended
  · rcases Bool.or_eq_true_iff.mp extended with digit | point
    · rw [isLetter_of_isDigit digit] at letter
      contradiction
    · rw [isLetter_of_isPoint point] at letter
      contradiction
  · exact (Bool.and_eq_true_iff.mp extended).1

theorem extendsBy_of_isLetter {first next : Char} (letter : isLetter first = true) :
    extendsBy first next = isLetter next := by
  simp [extendsBy, isDigit_of_isLetter letter, letter]

section
variable {previous next : Option Char} {token : Token} {first : Char} {run : List Char}

theorem Munched.run_eq_nil (munched : Munched previous next token)
    (text : token.text.toList = first :: run)
    (symbol : token.kind ∉ [.number, .function, .variable]) : run = [] := by
  obtain ⟨c, single, _⟩ := munched.symbol symbol
  rw [text] at single
  exact (List.cons.inj single).2

theorem Munched.toList_of_isParen (munched : Munched previous next token) {paren : Char}
    (isParen : token.isParen paren = true) : token.text.toList = [paren] := by
  obtain ⟨kind, head⟩ : token.kind = .parenthesis ∧ token.text.toList.head? = some paren := by
    simpa [Token.isParen] using isParen
  obtain ⟨c, single, _⟩ := munched.symbol (by simp [kind])
  rw [single] at head ⊢
  simpa using head

theorem munched_iff_of_digit (text : token.text.toList = first :: run)
    (digit : isDigit first = true) :
    Munched previous next token ↔ token.kind = .number ∧
      (∀ c ∈ run, isDigit c = true ∨ isPoint c = true) ∧
        ∀ c, next = some c → isDigit c = false ∧ isPoint c = false := by
  have noWord : ¬IsWord token.text.toList :=
    text ▸ not_isWord_cons (isLetter_of_isDigit digit) run
  have numeral_iff : IsNumeral token.text.toList ↔
      ∀ c ∈ run, isDigit c = true ∨ isPoint c = true := by
    rw [text, isNumeral_cons_iff]
    exact and_iff_right digit
  constructor
  · intro munched
    have number : token.kind = .number := by
      apply Decidable.byContradiction
      intro other
      have noName := not_or.mp (mt munched.word_iff.mp noWord)
      have alone : run = [] := munched.run_eq_nil text (by simp [other, noName])
      exact other (munched.number_iff.mpr (numeral_iff.mpr (by simp [alone])))
    exact ⟨number, numeral_iff.mp (munched.number_iff.mp number), munched.number_stops number⟩
  · rintro ⟨number, rest, stops⟩
    constructor
    case number_iff => exact iff_of_true number (numeral_iff.mpr rest)
    case number_stops => exact fun _ => stops
    case word_iff => exact iff_of_false (by simp [number]) noWord
    case function_iff => exact iff_of_false (by simp [number]) (mt isWord_of_functionName noWord)
    all_goals simp [number]

theorem munched_iff_of_letter (text : token.text.toList = first :: run)
    (letter : isLetter first = true) :
    Munched previous next token ↔
      token.kind = (if isFunctionName token.text then .function else .variable) ∧
        (∀ c ∈ run, isLetter c = true) ∧ (∀ c, next = some c → isLetter c = false) ∧
          ∀ c, previous = some c → isLetter c = false := by
  have noNumeral : ¬IsNumeral token.text.toList :=
    text ▸ not_isNumeral_cons (isDigit_of_isLetter letter) run
  have word_iff : IsWord token.text.toList ↔ ∀ c ∈ run, isLetter c = true := by
    rw [text, isWord_cons_iff]
    exact and_iff_right letter
  constructor
  · intro munched
    have named : token.kind = .function ∨ token.kind = .variable := by
      apply Decidable.byContradiction
      intro other
      have noNumber := mt munched.number_iff.mp noNumeral
      have alone : run = [] := munched.run_eq_nil text (by simp [not_or.mp other, noNumber])
      exact other (munched.word_iff.mpr (word_iff.mpr (by simp [alone])))
    have kind : token.kind = if isFunctionName token.text then .function else .variable := by
      have function_iff := munched.function_iff
      rw [← isFunctionName_iff] at function_iff
      split
      · rename_i function
        exact function_iff.mpr function
      · rename_i other
        exact named.resolve_left (mt function_iff.mp other)
    exact ⟨kind, word_iff.mp (munched.word_iff.mp named), munched.word_stops named,
      munched.word_starts named⟩
  · rintro ⟨kind, rest, stops, starts⟩
    have noNumber : token.kind ≠ .number := by
      rw [kind]
      split <;> simp
    have named : token.kind = .function ∨ token.kind = .variable := by
      rw [kind]
      split <;> simp
    constructor
    case number_iff => exact iff_of_false noNumber noNumeral
    case number_stops => exact fun number => absurd number noNumber
    case word_iff => exact iff_of_true named (word_iff.mpr rest)
    case word_starts => exact fun _ => starts
    case word_stops => exact fun _ => stops
    case function_iff =>
      rw [← isFunctionName_iff, kind]
      split <;> simp [*]
    case symbol =>
      intro symbol
      rcases named with named | named <;> simp [named] at symbol

theorem kindOf_symbol_iff {text : String} (noDigit : isDigit first = false)
    (noLetter : isLetter first = false) (kind : Kind) :
    kind = kindOf first text ↔ kind ∉ [.number, .function, .variable] ∧
      (kind = .operator ↔ first ∈ ['+', '-', '*', '/', '^']) ∧
      (kind = .parenthesis ↔ first ∈ ['(', ')']) ∧ (kind = .constant ↔ first = 'π') ∧
      (kind = .unknown ↔ first ∉ ['+', '-', '*', '/', '^', '(', ')', 'π']) := by
  -- `e` is in the class of the constants too, but its letter comes first.
  have noE : first ≠ 'e' := by
    rintro rfl
    contradiction
  have operator_iff : isOperator first = true ↔ first ∈ ['+', '-', '*', '/', '^'] := by
    simp [isOperator, or_assoc]
  have parenthesis_iff : isParenthesis first = true ↔ first ∈ ['(', ')'] := by
    simp [isParenthesis]
  have constant_iff : isConstant first = true ↔ first = 'π' := by
    simp [isConstant, noE]
  unfold kindOf
  cases kind <;> grind

theorem munched_iff_of_symbol (text : token.text.toList = first :: run)
    (noDigit : isDigit first = false) (noLetter : isLetter first = false) :
    Munched previous next token ↔ token.kind = kindOf first token.text ∧ run = [] := by
  have noNumeral : ¬IsNumeral token.text.toList := text ▸ not_isNumeral_cons noDigit run
  have noWord : ¬IsWord token.text.toList := text ▸ not_isWord_cons noLetter run
  constructor
  · intro munched
    have noNumber := mt munched.number_iff.mp noNumeral
    have noName := not_or.mp (mt munched.word_iff.mp noWord)
    have symbol : token.kind ∉ [.number, .function, .variable] := by simp [noNumber, noName]
    obtain ⟨c, single, kinds⟩ := munched.symbol symbol
    rw [text] at single
    cases single
    exact ⟨(kindOf_symbol_iff noDigit noLetter token.kind).mpr ⟨symbol, kinds⟩, rfl⟩
  · rintro ⟨kind, alone⟩
    obtain ⟨symbol, kinds⟩ := (kindOf_symbol_iff noDigit noLetter token.kind).mp kind
    obtain ⟨noNumber, noFunction, noVariable⟩ :
        token.kind ≠ .number ∧ token.kind ≠ .function ∧ token.kind ≠ .variable := by
      simpa using symbol
    constructor
    case number_iff => exact iff_of_false noNumber noNumeral
    case word_iff => exact iff_of_false (by simp [noFunction, noVariable]) noWord
    case function_iff => exact iff_of_false noFunction (mt isWord_of_functionName noWord)
    case symbol => exact fun _ => ⟨first, by rw [text, alone], kinds⟩
    all_goals simp [noNumber, noFunction, noVariable]

theorem munched_iff (text : token.text.toList = first :: run) :
    Munched previous next token ↔ token.kind = kindOf first token.text ∧
      (∀ c ∈ run, extendsBy first c = true) ∧ (∀ c, next = some c → extendsBy first c = false) ∧
        (isLetter first = true → ∀ c, previous = some c → isLetter c = false) := by
  cases digit : isDigit first with
  | true =>
      rw [munched_iff_of_digit text digit]
      simp [kindOf, extendsBy, digit, isLetter_of_isDigit digit]
  | false =>
      cases letter : isLetter first with
      | true =>
          rw [munched_iff_of_letter text letter]
          simp [kindOf, extendsBy_of_isLetter letter, digit, letter]
      | false =>
          rw [munched_iff_of_symbol text digit letter]
          simp [extendsBy, digit, letter, List.eq_nil_iff_forall_not_mem]

end

end Reckoner.Token
