import Reckoner.Proofs.Record.Origin

/-!
Copies of expressions, made or loaded. A copy is made anew from the text and then given all the rest
of the expression, so that it is the same in each part but the text, which is trimmed. That changes
only a text that was loaded with blanks at its ends. From then on the two go their own ways.
-/

namespace Reckoner.Expression

/-- What a copy has of its expression, and the snapshot that it takes of itself. -/
structure Preserves (expression copied : Expression) : Prop where
  category : copied.category = expression.category
  tokens : copied.tokens = expression.tokens
  term : copied.term = expression.term
  isValid : copied.isValid = expression.isValid
  message : copied.message = expression.message
  bindings : copied.bindings = expression.bindings
  phase : copied.state.phase = expression.state.phase
  tokenCount : copied.state.snapshot.tokenCount = copied.tokens.length
  hasBindings : copied.state.snapshot.hasBindings = true ↔ copied.bindings.entries ≠ []

theorem preserves_copy (expression : Expression) (now : Instant) (id : String) :
    Preserves expression (expression.copy now id) := by
  rw [copy_eq]
  constructor
  case hasBindings => simp [enter, Register.isEmpty]
  all_goals rfl

theorem input_of_mem_after {first : Expression} (trimmed : Text.trim first.input = first.input)
    (actions : List Action) :
    ∀ expression ∈ after [first] actions, expression.input = first.input := by
  apply after_induction fun expression => expression.input = first.input
  case operated =>
    intro expression operation same
    rw [apply_input, same]
  case copied =>
    intro expression now id same
    rw [copy_input, same, trimmed]
  case start =>
    intro expression member
    rw [List.mem_singleton.mp member]

theorem after_copy {held : List Expression} {index : Nat} {expression : Expression}
    (found : held[index]? = some expression) (now : Instant) (id : String) :
    after held [.copy index now id] = held ++ [expression.copy now id] := by
  simp [after, step, found]

/-- A copy is the expression again, but for its identity, its times and the blanks at the ends of
its text, which no expression has that was made of a text. What becomes of the two afterwards is
what the operations on each make of it. -/
theorem copy_preserves (first : Expression) (actions : List Action) {index : Nat}
    {expression : Expression} (found : (after [first] actions)[index]? = some expression)
    (now : Instant) (id : String) :
    let copied := expression.copy now id
    let place := (after [first] actions).length
    Preserves expression copied ∧ copied.input = Text.trim expression.input ∧
      (Text.trim first.input = first.input → copied.input = expression.input) ∧
      (∀ time name category text, first = make time name category text →
        copied.input = expression.input) ∧
      index < place ∧ ∀ later,
        let held := after [first] (actions ++ .copy index now id :: later)
        held[index]? = some (expression.operateAll (operationsAt index later)) ∧
          held[place]? = some (copied.operateAll (operationsAt place later)) := by
  intro copied place
  have kept : Text.trim first.input = first.input → copied.input = expression.input := by
    intro trimmed
    have same := input_of_mem_after trimmed actions expression (List.mem_of_getElem? found)
    rw [copy_input, same, trimmed]
  refine ⟨preserves_copy expression now id, copy_input expression now id, kept, ?made,
    (List.getElem?_eq_some_iff.mp found).1, ?apart⟩
  case made =>
    rintro time name category text rfl
    apply kept
    rw [make_input, Text.trim_trim]
  case apart =>
    intro later held
    have split : held = after (after [first] actions ++ [copied]) later := by
      rw [← after_copy found now id]
      simp only [held, after, List.foldl_append, List.foldl_cons, List.foldl_nil]
    have original : (after [first] actions ++ [copied])[index]? = some expression := by
      rw [List.getElem?_append_left (List.getElem?_eq_some_iff.mp found).1, found]
    have last : (after [first] actions ++ [copied])[place]? = some copied :=
      List.getElem?_concat_length
    rw [split]
    exact ⟨getElem?_after original later, getElem?_after last later⟩

theorem copy_preserves_cut :
    let made := make .epoch "a" .function " sin(x) "
    let cut := (Operation.tokenize .epoch).apply made
    let copied := cut.copy .epoch "b"
    (after [made] [.operate 0 (.tokenize .epoch)])[0]? = some cut ∧ Preserves cut copied ∧
      copied.input = cut.input ∧
        let held := after [made]
          [.operate 0 (.tokenize .epoch), .copy 0 .epoch "b", .operate 1 (.parse .epoch 1)]
        held[0]? = some cut ∧ held[1]? = some ((Operation.parse .epoch 1).apply copied) := by
  intro made cut copied
  have found : (after [made] [.operate 0 (.tokenize .epoch)])[0]? = some cut := rfl
  obtain ⟨preserves, -, -, kept, -, apart⟩ := copy_preserves made _ found .epoch "b"
  exact ⟨found, preserves, kept _ _ _ _ rfl, apart [.operate 1 (.parse .epoch 1)]⟩

/-- A copy of an expression that was loaded with blanks around its text has another text. -/
theorem copy_of_padded :
    ∃ loaded, load .epoch 0 (recorded " x " []).save = .ok loaded ∧ loaded.input = " x " ∧
      (loaded.copy .epoch "b").input = "x" := by
  refine ⟨_, load_recorded (by simp) " x ", rfl, ?_⟩
  rw [copy_input]
  decide

end Reckoner.Expression
