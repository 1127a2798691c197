import Reckoner.Command
import Reckoner.Proofs.Expression.Agreement
import Reckoner.Proofs.Json.RoundTrip
import Reckoner.Proofs.Record.Term
import Reckoner.Proofs.Text.Quoted

/-!
The commands against the plain reading of a text. They trim, check, cut and read it each in its own
order, and agree on which texts are good for what. A token is shown on one line, so that the lines
that are printed are the tokens.
-/

namespace Reckoner

namespace Token

open Reckoner.Text

theorem isUnseen_of_mem_name {kind : Kind} {c : Char} (member : c ∈ kind.name.toList) :
    isUnseen c = false := by
  have names : Kind.all.all (fun kind => kind.name.toList.all (!isUnseen ·)) = true := by
    decide +kernel
  have listed : kind ∈ Kind.all := by
    cases kind <;> decide
  simpa using List.all_eq_true.mp (List.all_eq_true.mp names kind listed) c member

theorem isUnseen_of_isDigit {c : Char} (digit : c.isDigit = true) : isUnseen c = false := by
  obtain ⟨low, high⟩ : 48 ≤ c.toNat ∧ c.toNat ≤ 57 := Char.isDigit_iff_toNat.mp digit
  exact isUnseen_of_toNat (by omega) (by omega)

theorem isUnseen_of_mem_toString {n : Nat} {c : Char} (member : c ∈ (toString n).toList) :
    isUnseen c = false := by
  rw [Nat.toString_eq_ofList_toDigits, String.toList_ofList] at member
  exact isUnseen_of_isDigit (Nat.isDigit_of_mem_toDigits (by decide) (by decide) member)

theorem isUnseen_of_mem_display {token : Token} {c : Char}
    (member : c ∈ token.display.toList) : isUnseen c = false := by
  have marks : [' ', '@'].all (!isUnseen ·) = true := by decide
  have mark : ∀ c ∈ [' ', '@'], isUnseen c = false := by
    simpa only [Bool.not_eq_true'] using List.all_eq_true.mp marks
  simp only [display, quoted, String.toList_append, String.toList_ofList, List.mem_append] at member
  rcases member with (((kind | space) | text) | at_) | position
  · exact isUnseen_of_mem_name kind
  · exact mark c (by simpa using Or.inl space)
  · exact isUnseen_of_mem_quotedList text
  · exact mark c (by simpa using Or.inr at_)
  · exact isUnseen_of_mem_toString position

theorem newline_notMem_display (token : Token) : '\n' ∉ token.display.toList := by
  intro member
  have seen := isUnseen_of_mem_display member
  have unseen : isUnseen '\n' = true := by decide
  rw [unseen] at seen
  contradiction

theorem splitOn_lines {tokens : List Token} (some : tokens ≠ []) :
    ("\n".intercalate (tokens.map display)).toList.splitOn '\n' =
      tokens.map (·.display.toList) := by
  rw [String.toList_intercalate, List.map_map]
  apply List.splitOn_intercalate
  case hx =>
    intro line shown
    obtain ⟨token, -, rfl⟩ := List.mem_map.mp shown
    exact newline_notMem_display token
  case hls => simpa using some

end Token

theorem Misfit.message_ne (misfit : Misfit) : misfit.message ≠ "no expression" := by
  intro same
  have first : misfit.message.toList.head? = some 'n' := by simp [same]
  delta message at first
  cases misfit <;> simp [String.toList_append] at first

namespace Expression

variable {expression : Expression}

theorem isOk_check (now : Instant) (id : String) (category : Category) (text : String) :
    (Validity.check (Text.trim text).toList).isOk = (make now id category text).isValid := by
  unfold make validate
  extract_lets untried
  change (Validity.check untried.input.toList).isOk = _
  cases Validity.check untried.input.toList <;> rfl

theorem Coherent.parse_tokenized (coherent : expression.Coherent)
    (valid : expression.isValid = true) (now : Instant) (build : Nat) :
    (∃ term, Term.parse (Token.scan expression.input) = .ok (some term) ∧
      ((expression.tokenized now).parse now build).2 = some term) ∨
    ∃ misfit, Term.parse (Token.scan expression.input) = .error misfit ∧
      ((expression.tokenized now).parse now build).2 = none ∧
        ((expression.tokenized now).parse now build).1.message = some misfit.message := by
  have outcome := (coherent.tokenized valid now).parse_cases valid now build
  rcases outcome with ⟨term, read, eq⟩ | ⟨misfit, read, eq⟩
  · exact Or.inl ⟨term, read, by rw [eq]⟩
  · exact Or.inr ⟨misfit, read, by rw [eq], by rw [eq]; rfl⟩

end Expression

namespace Command

variable {text : String}

theorem runTokens_cases (text : String) :
    (Validity.check (Text.trim text).toList = .ok () ∧
      runTokens text = .ok ("\n".intercalate ((Token.scan (Text.trim text)).map Token.display))) ∨
    ∃ fault, Validity.check (Text.trim text).toList = .error fault ∧
      runTokens text = .error (.fault fault) := by
  cases found : Validity.check (Text.trim text).toList with
  | ok => exact Or.inl ⟨rfl, by simp only [runTokens, found]⟩
  | error fault => exact Or.inr ⟨fault, rfl, by simp only [runTokens, found]⟩

theorem runAst_cases (text : String) :
    (∃ fault, Validity.check (Text.trim text).toList = .error fault ∧
      runAst text = .error (.refusal .invalid)) ∨
    Validity.check (Text.trim text).toList = .ok () ∧
      ((∃ term, Term.parse (Token.scan (Text.trim text)) = .ok (some term) ∧
        runAst text = .ok term.toJson.toLines) ∨
      ∃ misfit, Term.parse (Token.scan (Text.trim text)) = .error misfit ∧
        runAst text = .error (.unreadable misfit.message)) := by
  have checked := Expression.isOk_check .epoch "" .arithmetic text
  have coherent := Expression.make_coherent .epoch "" .arithmetic text
  have input := Expression.make_input .epoch "" .arithmetic text
  unfold runAst expressionOf
  generalize Expression.make .epoch "" .arithmetic text = expression at checked coherent input ⊢
  cases found : Validity.check (Text.trim text).toList with
  | error fault =>
      have invalid : expression.isValid = false := by rw [← checked, found]; rfl
      exact Or.inl ⟨fault, rfl, by simp [Expression.tokenize, invalid]⟩
  | ok =>
      have valid : expression.isValid = true := by rw [← checked, found]; rfl
      refine Or.inr ⟨rfl, ?_⟩
      rw [← input]
      rcases coherent.parse_tokenized valid .epoch 1 with ⟨term, read, answer⟩ |
        ⟨misfit, read, answer, message⟩
      · exact Or.inl ⟨term, read, by simp [Expression.tokenize, valid, answer]⟩
      · exact Or.inr ⟨misfit, read, by simp [Expression.tokenize, valid, answer, message]⟩

/-- What the commands print for a text, by the plain reading of it. -/
structure Accords (text : String) : Prop where
  validate_isOk : ∀ now id, (run (.validate text)).isOk =
    (Expression.make now id .arithmetic text).isValid
  tokens_isOk : ∀ now id, (run (.tokens text)).isOk =
    (Expression.make now id .arithmetic text).isValid
  tokens_lines : ∀ output, run (.tokens text) = .ok output →
    Token.scan (Text.trim text) ≠ [] ∧
      output.toList.splitOn '\n' = (Token.scan (Text.trim text)).map (·.display.toList)
  ast_ok_iff : ∀ output, run (.ast text) = .ok output ↔
    ∃ term, Validity.check (Text.trim text).toList = .ok () ∧
      Term.parse (Token.scan (Text.trim text)) = .ok (some term) ∧
        output = term.toJson.toLines ∧ Json.read? output = some term.toJson
  ast_of_fault : ∀ fault, Validity.check (Text.trim text).toList = .error fault →
    run (.ast text) = .error (.refusal .invalid)
  ast_of_misfit : ∀ misfit, Validity.check (Text.trim text).toList = .ok () →
    Term.parse (Token.scan (Text.trim text)) = .error misfit →
      run (.ast text) = .error (.unreadable misfit.message)
  ast_message : ∀ failure, run (.ast text) = .error failure → failure.message ≠ "no expression"

theorem isOk_runValidate (text : String) :
    (runValidate text).isOk = (Validity.check (Text.trim text).toList).isOk := by
  unfold runValidate
  cases Validity.check (Text.trim text).toList <;> rfl

theorem isOk_runTokens (text : String) :
    (runTokens text).isOk = (Validity.check (Text.trim text).toList).isOk := by
  rcases runTokens_cases text with ⟨found, eq⟩ | ⟨fault, found, eq⟩ <;> rw [eq, found] <;> rfl

/-- The commands agree with one another, with the validity of an expression and with the plain
reading of its text. -/
theorem run_accords (text : String) : Accords text := by
  constructor
  case validate_isOk =>
    intro now id
    rw [run, isOk_runValidate, Expression.isOk_check]
  case tokens_isOk =>
    intro now id
    rw [run, isOk_runTokens, Expression.isOk_check]
  case tokens_lines =>
    intro output printed
    rw [run] at printed
    rcases runTokens_cases text with ⟨found, eq⟩ | ⟨fault, found, eq⟩
    · have some : Token.scan (Text.trim text) ≠ [] :=
        Token.scan_ne_nil (Text.trim_trim text) (Expression.filled_of_check found)
      rw [eq] at printed
      cases printed
      exact ⟨some, Token.splitOn_lines some⟩
    · rw [eq] at printed
      cases printed
  case ast_ok_iff =>
    intro output
    rw [run]
    rcases runAst_cases text with
      ⟨fault, found, eq⟩ | ⟨sound, ⟨term, read, eq⟩ | ⟨misfit, read, eq⟩⟩
    · simp [eq, found]
    · constructor
      · intro printed
        cases eq.symm.trans printed
        exact ⟨term, sound, read, rfl, Json.read?_toLines term.writable_toJson⟩
      · rintro ⟨other, -, found, rfl, -⟩
        cases read.symm.trans found
        exact eq
    · simp [eq, read]
  case ast_of_fault =>
    intro fault found
    rcases runAst_cases text with ⟨_, _, eq⟩ | ⟨sound, _⟩
    · exact eq
    · simp [sound] at found
  case ast_of_misfit =>
    intro misfit sound read
    rcases runAst_cases text with ⟨_, found, _⟩ | ⟨_, ⟨_, found, _⟩ | ⟨other, found, eq⟩⟩
    · simp [sound] at found
    · simp [read] at found
    · cases read.symm.trans found
      exact eq
  case ast_message =>
    intro failure failed
    rw [run] at failed
    rcases runAst_cases text with
      ⟨fault, found, eq⟩ | ⟨sound, ⟨term, read, eq⟩ | ⟨misfit, read, eq⟩⟩
    · rw [eq] at failed
      cases failed
      simp [Failure.message, Expression.Refusal.message]
    · rw [eq] at failed
      cases failed
    · rw [eq] at failed
      cases failed
      exact misfit.message_ne

end Command

end Reckoner
