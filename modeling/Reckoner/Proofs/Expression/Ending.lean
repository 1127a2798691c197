import Reckoner.Proofs.Expression.Lifecycle
import Reckoner.Proofs.Term.Grammar
import Reckoner.Proofs.Token.Concord

/-!
The reading of valid texts. Reading can only want a token behind the last where every call has been
opened and none closed, and a valid text closes as many as it opens. So it finds a term or a place
where the tokens leave the grammar, and no expression that was made of a text complains of its end.
-/

namespace Reckoner

namespace Term

open Token Text

theorem Opening.isParen_name (opening : Opening) (paren : Char) :
    opening.name.isParen paren = false := by
  simp [isParen, opening.isFunction]

theorem Opening.isParen_parenthesis (opening : Opening) :
    opening.parenthesis.isParen ')' = false := by
  have isOpen := opening.isOpen
  rw [isParen_eq, beq_iff_eq] at isOpen
  rw [isParen_eq, isOpen]
  rfl

theorem countP_spelled (openings : List Opening) :
    (spelled openings).countP (·.isParen '(') = openings.length ∧
      (spelled openings).countP (·.isParen ')') = 0 := by
  induction openings with
  | nil => exact ⟨rfl, rfl⟩
  | cons opening openings ih =>
      simp [opening.isParen_name, opening.isOpen, opening.isParen_parenthesis, ih]

theorem eq_nil_of_balanced {openings : List Opening}
    (balanced : Balanced (parentheses (spelled openings))) : openings = [] := by
  have level := balanced.level
  rw [countP_parentheses, countP_parentheses, (countP_spelled openings).1,
    (countP_spelled openings).2] at level
  exact List.length_eq_zero_iff.mp level.symm

theorem parse_ne_endOfInput {text : String}
    (balanced : Validity.isBalanced text.toList = true) :
    parse (scan text) ≠ .error .endOfInput := by
  intro ended
  cases empty : (scan text).isEmpty with
  | true => simp [parse, empty] at ended
  | false =>
      have within : ofTokens (scan text) = .error .endOfInput := by
        cases read : ofTokens (scan text) with
        | ok term => simp [parse, empty, read, Except.map] at ended
        | error misfit => simpa [parse, empty, read, Except.map] using ended
      obtain ⟨openings, spelling⟩ := exists_spelled_of_ofTokens within
      have open' := (isBalanced_iff_balanced text).mp balanced
      rw [spelling] at open'
      rw [spelling, eq_nil_of_balanced open'] at empty
      contradiction

/-- Reading the tokens of a text never wants more of them: it finds nothing only in a blank text,
and in any other a term or a token that does not fit. -/
structure Ends (text : String) : Prop where
  ne_endOfInput : parse (scan text) ≠ .error .endOfInput
  none_iff : parse (scan text) = .ok none ↔ ∀ c ∈ text.toList, isBlank c = true
  answers : (∃ c ∈ text.toList, isBlank c = false) →
    (∃ term, parse (scan text) = .ok (some term)) ∨
      (∃ name position, parse (scan text) = .error (.missingParenthesis name position)) ∨
        ∃ kind token position, parse (scan text) = .error (.unexpected kind token position)

theorem ends_of_check {text : String} (sound : Validity.check text.toList = .ok ()) :
    Ends text := by
  have nested := ((Validity.answers text.toList).ok_iff.mp sound).2.2.2
  have never := parse_ne_endOfInput ((Validity.isBalanced_iff text.toList).mpr nested)
  have none_iff : parse (scan text) = .ok none ↔ ∀ c ∈ text.toList, isBlank c = true := by
    rw [parse_eq_none_iff, scan_eq_nil_iff]
  constructor
  case ne_endOfInput => exact never
  case none_iff => exact none_iff
  case answers =>
    rintro ⟨c, member, solid⟩
    cases read : parse (scan text) with
    | ok found =>
        cases found with
        | none =>
            have blank := none_iff.mp read c member
            rw [solid] at blank
            contradiction
        | some term => exact Or.inl ⟨term, rfl⟩
    | error misfit =>
        cases misfit with
        | endOfInput => exact absurd read never
        | missingParenthesis name position => exact Or.inr (Or.inl ⟨name, position, rfl⟩)
        | unexpected kind token position => exact Or.inr (Or.inr ⟨kind, token, position, rfl⟩)

end Term

theorem Fault.message_ne_endOfInput (fault : Fault) :
    fault.message ≠ Misfit.endOfInput.message := by
  cases fault <;> decide

theorem Misfit.message_eq_endOfInput_iff (misfit : Misfit) :
    misfit.message = Misfit.endOfInput.message ↔ misfit = .endOfInput := by
  refine ⟨fun same => ?_, fun same => same ▸ rfl⟩
  cases misfit with
  | endOfInput => rfl
  | unexpected kind text position =>
      have start : "unexpected token type ".toList <+: Misfit.endOfInput.message.toList := by
        rw [← same]
        unfold Misfit.message
        simp only [String.toList_append, List.append_assoc]
        exact List.prefix_append _ _
      exact absurd start (by decide)
  | missingParenthesis name position =>
      have start : "function call missing opening parenthesis after '".toList <+:
          Misfit.endOfInput.message.toList := by
        rw [← same]
        unfold Misfit.message
        simp only [String.toList_append, List.append_assoc]
        exact List.prefix_append _ _
      exact absurd start (by decide)

namespace Expression

theorem Complaint.ne_endOfInput {text message : String} (complaint : Complaint text message) :
    message ≠ Misfit.endOfInput.message := by
  cases complaint with
  | fault fault => exact fault.message_ne_endOfInput
  | misfit misfit sound found =>
      intro same
      rw [misfit.message_eq_endOfInput_iff.mp same] at found
      exact (Term.ends_of_check sound).ne_endOfInput found

/-- A valid text is read up to a term or a token that does not fit, and no expression made of a text
ever complains of the end of its input, whatever is done to it and its copies. -/
theorem ends_and_never_complains (text : String) :
    (Validity.check text.toList = .ok () → Term.Ends text) ∧
      ∀ now id category actions, ∀ expression ∈ after [make now id category text] actions,
        expression.message ≠ some "unexpected end of input" := by
  refine ⟨Term.ends_of_check, ?_⟩
  intro now id category actions expression held complains
  obtain ⟨coherent, -⟩ := coherent_of_mem_after now id category text actions expression held
  cases valid : expression.isValid with
  | true =>
      rw [coherent.quiet valid] at complains
      contradiction
  | false =>
      obtain ⟨message, found, complaint⟩ := coherent.blamed valid
      rw [found, Option.some.injEq] at complains
      exact complaint.ne_endOfInput complains

theorem ends_empty_call :
    let made := make .epoch "a" .arithmetic "sin(ln())"
    let read := (Operation.parse .epoch 1).apply (made.copy .epoch "b")
    Validity.check "sin(ln())".toList = .ok () ∧ Term.Ends "sin(ln())" ∧
      read ∈ after [made] [.copy 0 .epoch "b", .operate 1 (.parse .epoch 1)] ∧
        read.message ≠ some "unexpected end of input" := by
  intro made read
  have sound : Validity.check "sin(ln())".toList = .ok () := by decide
  have held : read ∈ after [made] [.copy 0 .epoch "b", .operate 1 (.parse .epoch 1)] := by
    simp [after, step, read]
  obtain ⟨ends, never⟩ := ends_and_never_complains "sin(ln())"
  exact ⟨sound, ends sound, held, never .epoch "a" .arithmetic _ read held⟩

end Expression

end Reckoner
