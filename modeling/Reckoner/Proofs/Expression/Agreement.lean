import Reckoner.Proofs.Expression.Lifecycle

/-!
Expressions against the plain reading of a text: trim it, check it, cut it into tokens and read
these as a term, each once. What an expression keeps from one operation to the next is never seen
in what it answers. A term that was found is found again, and one that was not is never found later.
-/

namespace Reckoner.Expression

variable {expression : Expression}

/-- What the next operation on an expression answers, by the plain reading of a text. -/
structure Agrees (text : String) (expression : Expression) : Prop where
  parse_eq_some_iff : ∀ now build term, (expression.parse now build).2 = some term ↔
    Validity.check (Text.trim text).toList = .ok () ∧
      Term.parse (Token.scan (Text.trim text)) = .ok (some term)
  isValid_parse : ∀ now build,
    (expression.parse now build).1.isValid = true ↔
      ∃ term, (expression.parse now build).2 = some term
  tokenize_eq : ∀ now, (expression.tokenize now).map (·.tokens) =
    if expression.isValid then .ok (Token.scan (Text.trim text)) else .error .invalid
  message_of_valid : expression.isValid = true → expression.message = none
  message_of_invalid : expression.isValid = false →
    ∃ message, expression.message = some message ∧ Complaint (Text.trim text) message

theorem Complaint.no_term {text message : String} (complaint : Complaint text message)
    (term : Term) :
    ¬(Validity.check text.toList = .ok () ∧ Term.parse (Token.scan text) = .ok (some term)) := by
  rintro ⟨sound, read⟩
  cases complaint with
  | fault fault found =>
      rw [sound] at found
      contradiction
  | misfit misfit _ found =>
      rw [read] at found
      contradiction

theorem tokenize_eq (expression : Expression) (now : Instant) :
    (expression.tokenize now).map (·.tokens) =
      if expression.isValid then .ok (Token.scan expression.input) else .error .invalid := by
  unfold tokenize
  cases expression.isValid <;> rfl

namespace Coherent

theorem parse_eq_some_iff (coherent : expression.Coherent) (now : Instant) (build : Nat)
    (term : Term) :
    (expression.parse now build).2 = some term ↔
      Validity.check expression.input.toList = .ok () ∧
        Term.parse (Token.scan expression.input) = .ok (some term) := by
  cases valid : expression.isValid with
  | false =>
      obtain ⟨message, _, complaint⟩ := coherent.blamed valid
      have never := complaint.no_term term
      simp only [parse_of_invalid valid, never, reduceCtorEq]
  | true =>
      have sound := coherent.sound valid
      rcases coherent.parse_cases valid now build with ⟨found, read, eq⟩ | ⟨misfit, read, eq⟩
      · simp [eq, sound, read]
      · simp [eq, sound, read]

theorem isValid_parse (coherent : expression.Coherent) (now : Instant) (build : Nat) :
    (expression.parse now build).1.isValid = true ↔
      ∃ term, (expression.parse now build).2 = some term := by
  cases valid : expression.isValid with
  | false => simp [parse_of_invalid valid, valid]
  | true =>
      rcases coherent.parse_cases valid now build with ⟨found, read, eq⟩ | ⟨misfit, read, eq⟩
      · simp [eq, enter, Expression.tokenized, valid]
      · simp [eq, enter, invalidate]

theorem agrees {text : String} (coherent : expression.Coherent)
    (input : expression.input = Text.trim text) : Agrees text expression := by
  constructor
  case parse_eq_some_iff =>
    intro now build term
    rw [coherent.parse_eq_some_iff, input]
  case isValid_parse => exact coherent.isValid_parse
  case tokenize_eq =>
    intro now
    rw [Expression.tokenize_eq, input]
  case message_of_valid => exact coherent.quiet
  case message_of_invalid => exact input ▸ coherent.blamed

end Coherent

/-- Whatever is done to a new expression and its copies, each of them goes on to answer as its text
is plainly read. -/
theorem agrees_of_mem_after (now : Instant) (id : String) (category : Category) (text : String)
    (actions : List Action) (expression : Expression)
    (held : expression ∈ after [make now id category text] actions) : Agrees text expression := by
  obtain ⟨coherent, input⟩ := coherent_of_mem_after now id category text actions expression held
  exact coherent.agrees input

theorem agrees_copy_of_read :
    let made := make .epoch "a" .function " sin(x) "
    let bound := (Operation.assign "x" 0.5).apply made
    let read := (Operation.parse .epoch 1).apply bound
    let copied := (Operation.tokenize .epoch).apply (read.copy .epoch "b")
    copied ∈ after [made] [.operate 0 (.assign "x" 0.5), .operate 0 (.parse .epoch 1),
        .copy 0 .epoch "b", .operate 1 (.tokenize .epoch)] ∧
      Agrees " sin(x) " copied := by
  intro made bound read copied
  have held : copied ∈ after [made] [.operate 0 (.assign "x" 0.5), .operate 0 (.parse .epoch 1),
      .copy 0 .epoch "b", .operate 1 (.tokenize .epoch)] := by
    simp [after, step, copied, read, bound]
  exact ⟨held, agrees_of_mem_after .epoch "a" .function " sin(x) " _ copied held⟩

end Reckoner.Expression
