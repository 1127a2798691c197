import Reckoner.Proofs.Expression.Usage
import Reckoner.Proofs.Term.Grammar

/-!
What the operations make of any expression at all, also of one that was loaded and whose parts do
not agree. Reading has four outcomes. No operation changes the text or makes a valid expression of
an invalid one, and between two of them the phase tells the validity.
-/

namespace Reckoner.Expression

variable {expression : Expression}

theorem validate_frame (expression : Expression) (now : Instant) :
    ∃ isValid message state,
      expression.validate now = { expression with isValid, message, state } := by
  unfold validate
  split
  · exact ⟨true, none, _, rfl⟩
  · rename_i fault _
    exact ⟨false, some fault.message, _, rfl⟩

theorem make_input (now : Instant) (id : String) (category : Category) (text : String) :
    (make now id category text).input = Text.trim text := by
  unfold make
  extract_lets untried
  obtain ⟨isValid, message, state, checked⟩ := validate_frame untried now
  rw [checked]

theorem copy_eq (expression : Expression) (now : Instant) (id : String) :
    expression.copy now id =
      { expression with id, input := Text.trim expression.input, created := now }.enter now
        expression.state.phase := by
  unfold copy make
  extract_lets untried fresh
  obtain ⟨isValid, message, state, checked⟩ := validate_frame untried now
  have made : fresh = { untried with isValid, message, state } := checked
  rw [made]
  rfl

theorem copy_input (expression : Expression) (now : Instant) (id : String) :
    (expression.copy now id).input = Text.trim expression.input := by
  rw [copy_eq]
  rfl

theorem copy_created (expression : Expression) (now : Instant) (id : String) :
    (expression.copy now id).created = now := by
  rw [copy_eq]
  rfl

def readied (expression : Expression) (now : Instant) : Expression :=
  if expression.tokens.isEmpty then expression.tokenized now else expression

inductive Outcome (expression : Expression) (now : Instant) (build : Nat) :
    Expression × Option Term → Prop
  | refused (invalid : expression.isValid = false) :
      Outcome expression now build (expression, none)
  | bare (valid : expression.isValid = true) (uncut : expression.tokens = [])
      (nothing : Token.scan expression.input = []) :
      Outcome expression now build (expression.tokenized now, none)
  | understood (valid : expression.isValid = true) (filled : (expression.readied now).tokens ≠ [])
      (term : Term) (read : Term.parse (expression.readied now).tokens = .ok (some term)) :
      Outcome expression now build
        ({ expression.readied now with term := some term, build }.enter now .valid, some term)
  | misread (valid : expression.isValid = true) (filled : (expression.readied now).tokens ≠ [])
      (misfit : Misfit) (read : Term.parse (expression.readied now).tokens = .error misfit) :
      Outcome expression now build
        ({ expression.readied now with term := none }.invalidate now misfit.message, none)

theorem readied_frame (expression : Expression) (now : Instant) :
    ∃ tokens state, expression.readied now = { expression with tokens, state } := by
  unfold readied
  split
  · exact ⟨_, _, rfl⟩
  · exact ⟨_, _, rfl⟩

theorem readied_bare {now : Instant} (bare : (expression.readied now).tokens = []) :
    expression.tokens = [] ∧ Token.scan expression.input = [] ∧
      expression.readied now = expression.tokenized now := by
  unfold readied at bare ⊢
  split at bare
  · rename_i uncut
    exact ⟨List.isEmpty_iff.mp uncut, bare, if_pos uncut⟩
  · rename_i cut
    simp [bare] at cut

theorem parse_of_invalid (invalid : expression.isValid = false) (now : Instant) (build : Nat) :
    expression.parse now build = (expression, none) := by
  simp [parse, invalid]

theorem parse_outcome (expression : Expression) (now : Instant) (build : Nat) :
    Outcome expression now build (expression.parse now build) := by
  cases valid : expression.isValid with
  | false =>
      rw [parse_of_invalid valid]
      exact .refused valid
  | true =>
      have eq : expression.parse now build =
          if (expression.readied now).tokens.isEmpty then (expression.readied now, none)
          else ((expression.readied now).parseTokens now build,
            ((expression.readied now).parseTokens now build).term) := by
        simp only [parse, valid, if_true]
        rfl
      rw [eq]
      split
      · rename_i bare
        obtain ⟨uncut, nothing, same⟩ := readied_bare (List.isEmpty_iff.mp bare)
        rw [same]
        exact .bare valid uncut nothing
      · rename_i filled
        have filled : (expression.readied now).tokens ≠ [] := by simpa using filled
        unfold parseTokens
        split
        · rename_i found read
          cases found with
          | none => exact absurd ((Term.parse_eq_none_iff _).mp read) filled
          | some term => exact .understood valid filled term read
        · rename_i misfit read
          exact .misread valid filled misfit read

theorem held_of_parse {now : Instant} {build : Nat} {term : Term}
    (read : (expression.parse now build).2 = some term) :
    expression.isValid = true ∧ (expression.parse now build).1.term = some term := by
  have outcome := expression.parse_outcome now build
  generalize expression.parse now build = answer at outcome read
  cases outcome with
  | refused | bare | misread => contradiction
  | understood valid _ other => exact ⟨valid, read⟩

theorem apply_input (operation : Operation) (expression : Expression) :
    (operation.apply expression).input = expression.input := by
  cases operation with
  | tokenize now =>
      cases valid : expression.isValid <;> simp only [Operation.apply, tokenize, valid] <;> rfl
  | parse now build =>
      obtain ⟨tokens, state, frame⟩ := expression.readied_frame now
      rw [Operation.apply]
      have outcome := expression.parse_outcome now build
      generalize expression.parse now build = answer at outcome
      cases outcome with
      | refused => rfl
      | bare => rfl
      | understood => rw [frame]; rfl
      | misread => rw [frame]; rfl
  | assign name value => rfl
  | clearBindings => rfl

theorem isValid_of_apply {operation : Operation}
    (valid : (operation.apply expression).isValid = true) : expression.isValid = true := by
  cases operation with
  | tokenize now =>
      cases before : expression.isValid with
      | true => rfl
      | false => simp [Operation.apply, tokenize, before] at valid
  | parse now build =>
      cases before : expression.isValid with
      | true => rfl
      | false => rw [Operation.apply, parse_of_invalid before, before] at valid; exact valid
  | assign name value => exact valid
  | clearBindings => exact valid

def Phased (expression : Expression) : Prop :=
  expression.state.phase = .invalid ∧ expression.isValid = false ∨
    (expression.state.phase = .valid ∨ expression.state.phase = .parsing) ∧
      expression.isValid = true

theorem Phased.apply (phased : expression.Phased) (operation : Operation) :
    (operation.apply expression).Phased := by
  cases operation with
  | tokenize now =>
      cases valid : expression.isValid with
      | false => simpa [Operation.apply, tokenize, valid] using phased
      | true =>
          simp only [Operation.apply, tokenize, valid, if_true]
          exact Or.inr ⟨Or.inr rfl, valid⟩
  | parse now build =>
      obtain ⟨tokens, state, frame⟩ := expression.readied_frame now
      rw [Operation.apply]
      have outcome := expression.parse_outcome now build
      generalize expression.parse now build = answer at outcome
      cases outcome with
      | refused => exact phased
      | bare valid => exact Or.inr ⟨Or.inr rfl, valid⟩
      | understood valid => rw [frame]; exact Or.inr ⟨Or.inl rfl, valid⟩
      | misread => exact Or.inl ⟨rfl, rfl⟩
  | assign name value => exact phased
  | clearBindings => exact phased

theorem Phased.copy (phased : expression.Phased) (now : Instant) (id : String) :
    (expression.copy now id).Phased := by
  rw [copy_eq]
  exact phased

end Reckoner.Expression
