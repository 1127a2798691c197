import Reckoner.Proofs.Expression.Outcome
import Reckoner.Proofs.Text.Blank

/-!
Invalid expressions. Whatever has made an expression invalid, and whether or not the rest of it
bears that out, nothing is cut from it or read in it again. Names are still bound in it, and it is
still copied, with the same verdict although the copy is made from the text.
-/

namespace Reckoner.Expression

variable {first expression : Expression}

def Operation.rebind : Operation → Register Float → Register Float
  | .assign name value, bindings => bindings.insert name value
  | .clearBindings, _ => .empty
  | _, bindings => bindings

def rebindAll (operations : List Operation) (bindings : Register Float) : Register Float :=
  operations.foldl (fun bindings operation => operation.rebind bindings) bindings

theorem tokenize_of_invalid (invalid : expression.isValid = false) (now : Instant) :
    expression.tokenize now = .error .invalid := by
  simp [tokenize, invalid]

theorem apply_of_invalid (invalid : expression.isValid = false) (operation : Operation) :
    operation.apply expression =
      { expression with bindings := operation.rebind expression.bindings } := by
  cases operation with
  | tokenize now => simp only [Operation.apply, tokenize_of_invalid invalid, Operation.rebind]
  | parse now build => simp only [Operation.apply, parse_of_invalid invalid, Operation.rebind]
  | assign name value => rfl
  | clearBindings => rfl

theorem operateAll_of_invalid (invalid : expression.isValid = false)
    (operations : List Operation) :
    expression.operateAll operations =
      { expression with bindings := rebindAll operations expression.bindings } := by
  induction operations generalizing expression with
  | nil => rfl
  | cons operation rest ih =>
      change (operation.apply expression).operateAll rest = _
      rw [apply_of_invalid invalid]
      exact ih invalid

/-- What an expression has of an invalid one that it is, or is a copy of. -/
structure Frozen (first expression : Expression) : Prop where
  isValid : expression.isValid = false
  message : expression.message = first.message
  tokens : expression.tokens = first.tokens
  term : expression.term = first.term
  category : expression.category = first.category
  phase : expression.state.phase = first.state.phase
  input : expression.input = first.input ∨ expression.input = Text.trim first.input

namespace Frozen

theorem self (invalid : first.isValid = false) : Frozen first first := by
  constructor
  case isValid => exact invalid
  case input => exact Or.inl rfl
  all_goals rfl

theorem apply (frozen : Frozen first expression) (operation : Operation) :
    Frozen first (operation.apply expression) := by
  rw [apply_of_invalid frozen.isValid]
  exact { frozen with }

theorem copy (frozen : Frozen first expression) (now : Instant) (id : String) :
    Frozen first (expression.copy now id) := by
  have input : Text.trim expression.input = Text.trim first.input := by
    rcases frozen.input with same | trimmed
    · rw [same]
    · rw [trimmed, Text.trim_trim]
  rw [copy_eq]
  exact { frozen with input := Or.inr input }

theorem of_mem_after (invalid : first.isValid = false) {actions : List Action}
    (held : expression ∈ after [first] actions) : Frozen first expression := by
  revert expression
  apply after_induction (Frozen first)
  case operated => exact fun expression operation frozen => frozen.apply operation
  case copied => exact fun expression now id frozen => frozen.copy now id
  case start =>
    intro expression member
    rw [List.mem_singleton.mp member]
    exact self invalid

end Frozen

structure Inert (expression : Expression) : Prop where
  tokenize : ∀ now, expression.tokenize now = .error .invalid
  tokenized : ∀ now, (Operation.tokenize now).apply expression = expression
  parse : ∀ now build, expression.parse now build = (expression, none)
  copied : ∀ now id, (expression.copy now id).isValid = false ∧
    (expression.copy now id).message = expression.message

theorem inert_of_invalid (invalid : expression.isValid = false) : expression.Inert := by
  constructor
  case tokenize => exact tokenize_of_invalid invalid
  case tokenized => exact fun now => apply_of_invalid invalid (.tokenize now)
  case parse => exact parse_of_invalid invalid
  case copied =>
    intro now id
    rw [copy_eq]
    exact ⟨invalid, rfl⟩

/-- Among whatever other expressions it is held, an invalid expression changes in nothing but the
names that are bound in it, and all that is copied from it is as invalid and as inert as it is
itself. -/
theorem inert_after {first : Expression} (invalid : first.isValid = false) :
    (∀ (held : List Expression) (index : Nat), held[index]? = some first → ∀ actions,
      (after held actions)[index]? = some
        { first with bindings := rebindAll (operationsAt index actions) first.bindings }) ∧
    ∀ (actions : List Action), ∀ expression ∈ after [first] actions,
      Frozen first expression ∧ expression.Inert := by
  constructor
  · intro held index found actions
    rw [getElem?_after found, operateAll_of_invalid invalid]
  · intro actions expression member
    have frozen := Frozen.of_mem_after invalid member
    exact ⟨frozen, inert_of_invalid frozen.isValid⟩

theorem inert_after_misread :
    let first := ((make .epoch "a" .arithmetic "+").parse .epoch 1).1
    let actions := [.operate 0 (.assign "x" 2), .copy 0 .epoch "b", .operate 1 (.parse .epoch 2)]
    first.isValid = false ∧ (make .epoch "b" first.category first.input).isValid = true ∧
      (after [first] actions)[0]? =
        some { first with bindings := rebindAll [.assign "x" 2] first.bindings } ∧
      ∀ expression ∈ after [first] actions, Frozen first expression ∧ expression.Inert := by
  intro first actions
  have invalid : first.isValid = false := by decide +kernel
  have valid : (make .epoch "b" first.category first.input).isValid = true := by decide +kernel
  obtain ⟨same, frozen⟩ := inert_after invalid
  exact ⟨invalid, valid, same [first] 0 rfl actions, frozen actions⟩

end Reckoner.Expression
