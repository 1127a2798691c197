import Reckoner.Proofs.Expression.Outcome
import Reckoner.Proofs.Token.Scan

/-!
The life of an expression. Between any two operations the phase, the validity and the message of an
expression agree, and its tokens and its term are those of its text. The snapshot is of the present
unless the tokens are newer than the phase, as they are just after the text has been cut.
-/

namespace Reckoner.Expression

inductive Complaint (text : String) : String → Prop
  | fault (fault : Fault) (found : Validity.check text.toList = .error fault) :
      Complaint text fault.message
  | misfit (misfit : Misfit) (sound : Validity.check text.toList = .ok ())
      (found : Term.parse (Token.scan text) = .error misfit) : Complaint text misfit.message

/-- The agreement of all parts of an expression between two operations. -/
structure Coherent (expression : Expression) : Prop where
  trimmed : Text.trim expression.input = expression.input
  sound : expression.isValid = true → Validity.check expression.input.toList = .ok ()
  quiet : expression.isValid = true → expression.message = none
  blamed : expression.isValid = false →
    ∃ message, expression.message = some message ∧ Complaint expression.input message
  cut : expression.tokens = [] ∨ expression.tokens = Token.scan expression.input
  understood : ∀ term, expression.term = some term →
    expression.isValid = true ∧ Term.parse (Token.scan expression.input) = .ok (some term)
  phase : expression.state.phase = .invalid ∧ expression.isValid = false ∨
    (expression.state.phase = .valid ∨ expression.state.phase = .parsing) ∧
      expression.isValid = true
  counted : expression.state.phase ≠ .parsing →
    expression.state.snapshot.tokenCount = expression.tokens.length

theorem check_nil : Validity.check [] = .error .empty :=
  rfl

theorem filled_of_check {text : List Char} (sound : Validity.check text = .ok ()) : text ≠ [] := by
  intro empty
  rw [empty, check_nil] at sound
  contradiction

variable {expression : Expression}

theorem enter_valid_coherent (trimmed : Text.trim expression.input = expression.input)
    (sound : Validity.check expression.input.toList = .ok ()) (valid : expression.isValid = true)
    (quiet : expression.message = none)
    (cut : expression.tokens = [] ∨ expression.tokens = Token.scan expression.input)
    (understood : ∀ term, expression.term = some term →
      Term.parse (Token.scan expression.input) = .ok (some term)) (now : Instant) :
    (expression.enter now .valid).Coherent := by
  constructor
  case trimmed => exact trimmed
  case sound => exact fun _ => sound
  case quiet => exact fun _ => quiet
  case blamed =>
    intro invalid
    exact absurd valid (Bool.eq_false_iff.mp invalid)
  case cut => exact cut
  case understood =>
    intro term found
    exact ⟨valid, understood term found⟩
  case phase => exact Or.inr ⟨Or.inl rfl, valid⟩
  case counted => exact fun _ => rfl

theorem invalidate_coherent (trimmed : Text.trim expression.input = expression.input)
    {message : String} (complaint : Complaint expression.input message)
    (cut : expression.tokens = [] ∨ expression.tokens = Token.scan expression.input)
    (unread : expression.term = none) (now : Instant) :
    (expression.invalidate now message).Coherent := by
  constructor
  case trimmed => exact trimmed
  case sound => exact fun valid => nomatch valid
  case quiet => exact fun valid => nomatch valid
  case blamed => exact fun _ => ⟨message, rfl, complaint⟩
  case cut => exact cut
  case understood =>
    intro term found
    have none : (none : Option Term) = some term := unread.symm.trans found
    contradiction
  case phase => exact Or.inl ⟨rfl, rfl⟩
  case counted => exact fun _ => rfl

theorem validate_coherent (trimmed : Text.trim expression.input = expression.input)
    (uncut : expression.tokens = []) (unread : expression.term = none) (now : Instant) :
    (expression.validate now).Coherent := by
  unfold validate
  split
  · rename_i sound
    apply enter_valid_coherent
    case trimmed => exact trimmed
    case sound => exact sound
    case valid => rfl
    case quiet => rfl
    case cut => exact Or.inl uncut
    case understood => simp [unread]
  · rename_i fault found
    exact invalidate_coherent trimmed (Complaint.fault fault found) (Or.inl uncut) unread now

theorem make_coherent (now : Instant) (id : String) (category : Category) (text : String) :
    (make now id category text).Coherent := by
  apply validate_coherent
  case trimmed => exact Text.trim_trim text
  case uncut => rfl
  case unread => rfl

namespace Coherent

theorem scanned (coherent : expression.Coherent) (valid : expression.isValid = true) :
    Token.scan expression.input ≠ [] :=
  Token.scan_ne_nil coherent.trimmed (filled_of_check (coherent.sound valid))

theorem tokenized (coherent : expression.Coherent) (valid : expression.isValid = true)
    (now : Instant) : (expression.tokenized now).Coherent :=
  { coherent with
    cut := Or.inr rfl
    phase := Or.inr ⟨Or.inr rfl, valid⟩
    counted := fun elsewhere => absurd rfl elsewhere }

theorem readied_eq (coherent : expression.Coherent) (now : Instant) :
    ∃ state, expression.readied now =
      { expression with tokens := Token.scan expression.input, state } := by
  unfold readied
  split
  · exact ⟨_, rfl⟩
  · rename_i filled
    rcases coherent.cut with uncut | cut
    · simp [uncut] at filled
    · exact ⟨expression.state, by rw [← cut]⟩

theorem parse_cases (coherent : expression.Coherent) (valid : expression.isValid = true)
    (now : Instant) (build : Nat) :
    (∃ term, Term.parse (Token.scan expression.input) = .ok (some term) ∧
      expression.parse now build =
        ({ expression.tokenized now with term := some term, build }.enter now .valid, some term)) ∨
    ∃ misfit, Term.parse (Token.scan expression.input) = .error misfit ∧
      expression.parse now build =
        ({ expression.tokenized now with term := none }.invalidate now misfit.message, none) := by
  obtain ⟨state, ready⟩ := coherent.readied_eq now
  have outcome := expression.parse_outcome now build
  generalize expression.parse now build = answer at outcome ⊢
  cases outcome with
  | refused invalid => simp [valid] at invalid
  | bare _ _ nothing => exact absurd nothing (coherent.scanned valid)
  | understood _ _ term read =>
      rw [ready] at read ⊢
      exact Or.inl ⟨term, read, rfl⟩
  | misread _ _ misfit read =>
      rw [ready] at read ⊢
      exact Or.inr ⟨misfit, read, rfl⟩

theorem parse (coherent : expression.Coherent) (now : Instant) (build : Nat) :
    (expression.parse now build).1.Coherent := by
  cases valid : expression.isValid with
  | false => rw [parse_of_invalid valid]; exact coherent
  | true =>
      rcases coherent.parse_cases valid now build with ⟨term, read, eq⟩ | ⟨misfit, read, eq⟩
      · rw [eq]
        apply enter_valid_coherent
        case trimmed => exact coherent.trimmed
        case sound => exact coherent.sound valid
        case valid => exact valid
        case quiet => exact coherent.quiet valid
        case cut => exact Or.inr rfl
        case understood =>
          intro other found
          cases found
          exact read
      · rw [eq]
        apply invalidate_coherent
        case trimmed => exact coherent.trimmed
        case complaint => exact Complaint.misfit misfit (coherent.sound valid) read
        case cut => exact Or.inr rfl
        case unread => rfl

theorem operated (coherent : expression.Coherent) (operation : Operation) :
    (operation.apply expression).Coherent := by
  cases operation with
  | tokenize now =>
      cases valid : expression.isValid with
      | false => simpa [Operation.apply, tokenize, valid] using coherent
      | true => simpa [Operation.apply, tokenize, valid] using coherent.tokenized valid now
  | parse now build => exact coherent.parse now build
  | assign name value => exact { coherent with }
  | clearBindings => exact { coherent with }

theorem copy_eq (coherent : expression.Coherent) (now : Instant) (id : String) :
    expression.copy now id =
      { expression with id, created := now }.enter now expression.state.phase := by
  rw [Expression.copy_eq, coherent.trimmed]

theorem copied (coherent : expression.Coherent) (now : Instant) (id : String) :
    (expression.copy now id).Coherent := by
  rw [coherent.copy_eq]
  exact { coherent with counted := fun _ => rfl }

theorem copied_input (coherent : expression.Coherent) (now : Instant) (id : String) :
    (expression.copy now id).input = expression.input := by
  rw [copy_input, coherent.trimmed]

end Coherent

theorem coherent_of_mem_after (now : Instant) (id : String) (category : Category) (text : String)
    (actions : List Action) :
    ∀ expression ∈ after [make now id category text] actions,
      expression.Coherent ∧ expression.input = Text.trim text := by
  apply after_induction (fun expression => expression.Coherent ∧ expression.input = Text.trim text)
  case operated =>
    rintro expression operation ⟨coherent, input⟩
    exact ⟨coherent.operated operation, (apply_input operation expression).trans input⟩
  case copied =>
    rintro expression now id ⟨coherent, input⟩
    exact ⟨coherent.copied now id, (coherent.copied_input now id).trans input⟩
  case start =>
    intro expression member
    rw [List.mem_singleton.mp member]
    exact ⟨make_coherent now id category text, make_input now id category text⟩

/-- What a caller may rely on between two operations. -/
structure Orderly (expression : Expression) : Prop where
  phase : expression.state.phase = .valid ∨ expression.state.phase = .parsing ∨
    expression.state.phase = .invalid
  phase_invalid_iff : expression.state.phase = .invalid ↔ expression.isValid = false
  message_iff : expression.isValid = false ↔ expression.message.isSome = true
  tokens : expression.tokens = [] ∨ expression.tokens = Token.scan expression.input
  input : expression.input = Text.trim expression.input
  term : ∀ term, expression.term = some term →
    expression.isValid = true ∧ Term.parse (Token.scan expression.input) = .ok (some term)
  tokenCount : expression.state.phase = .valid ∨ expression.state.phase = .invalid →
    expression.state.snapshot.tokenCount = expression.tokens.length

theorem Coherent.message_isSome (coherent : expression.Coherent) :
    expression.message.isSome = !expression.isValid := by
  cases valid : expression.isValid with
  | false =>
      obtain ⟨message, found, _⟩ := coherent.blamed valid
      simp [found]
  | true => simp [coherent.quiet valid]

theorem Coherent.orderly (coherent : expression.Coherent) : expression.Orderly := by
  constructor
  case phase =>
    rcases coherent.phase with ⟨invalid, _⟩ | ⟨valid | parsing, _⟩
    · exact Or.inr (Or.inr invalid)
    · exact Or.inl valid
    · exact Or.inr (Or.inl parsing)
  case phase_invalid_iff =>
    rcases coherent.phase with ⟨phase, invalid⟩ | ⟨phase | phase, valid⟩
    · simp [phase, invalid]
    · simp [phase, valid]
    · simp [phase, valid]
  case message_iff => simp [coherent.message_isSome]
  case tokens => exact coherent.cut
  case input => exact coherent.trimmed.symm
  case term => exact coherent.understood
  case tokenCount =>
    intro settled
    apply coherent.counted
    rcases settled with phase | phase <;> simp [phase]

/-- The life of an expression is orderly, and so is that of every copy. -/
theorem orderly_of_mem_after (now : Instant) (id : String) (category : Category) (text : String)
    (actions : List Action) (expression : Expression)
    (held : expression ∈ after [make now id category text] actions) : expression.Orderly :=
  (coherent_of_mem_after now id category text actions expression held).1.orderly

theorem orderly_copy_of_cut :
    let made := make .epoch "a" .arithmetic "sin(x)"
    let cut := (Operation.tokenize .epoch).apply made
    let copied := (Operation.parse .epoch 1).apply (cut.copy .epoch "b")
    copied ∈ after [made]
        [.operate 0 (.tokenize .epoch), .copy 0 .epoch "b", .operate 1 (.parse .epoch 1)] ∧
      copied.Orderly := by
  intro made cut copied
  have held : copied ∈ after [made]
      [.operate 0 (.tokenize .epoch), .copy 0 .epoch "b", .operate 1 (.parse .epoch 1)] := by
    simp [after, step, copied, cut]
  exact ⟨held, orderly_of_mem_after .epoch "a" .arithmetic "sin(x)" _ copied held⟩

end Reckoner.Expression
