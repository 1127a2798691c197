import Mathlib.Data.List.Basic
import Reckoner.Expression

/-!
The use of expressions as a run of actions. A caller holds some expressions, works on any one of
them at a time, and may copy any of them; it then holds the copy as well and goes on with both.
Every action is given its own time, and a construction its own label, as they come from outside.
-/

namespace Reckoner.Expression

inductive Operation where
  | tokenize (now : Instant)
  | parse (now : Instant) (build : Nat)
  | assign (name : String) (value : Float)
  | clearBindings

def Operation.apply : Operation → Expression → Expression
  | .tokenize now, expression =>
      match expression.tokenize now with
      | .ok tokenized => tokenized
      | .error _ => expression
  | .parse now build, expression => (expression.parse now build).1
  | .assign name value, expression => expression.assign name value
  | .clearBindings, expression => expression.clearBindings

/-- One use of the expression at an index, if one is held there. -/
inductive Action where
  | operate (index : Nat) (operation : Operation)
  | copy (index : Nat) (now : Instant) (id : String)

def step (held : List Expression) : Action → List Expression
  | .operate index operation => held.modify index operation.apply
  | .copy index now id =>
      match held[index]? with
      | some expression => held ++ [expression.copy now id]
      | none => held

def after (held : List Expression) (actions : List Action) : List Expression :=
  actions.foldl step held

theorem mem_step {held : List Expression} {action : Action} {expression : Expression}
    (member : expression ∈ step held action) :
    expression ∈ held ∨
      (∃ earlier ∈ held, ∃ operation : Operation, expression = operation.apply earlier) ∨
      ∃ earlier ∈ held, ∃ now id, expression = earlier.copy now id := by
  cases action with
  | operate index operation =>
      simp only [step] at member
      obtain ⟨position, bound, found⟩ := List.mem_iff_getElem.mp member
      rw [List.getElem_modify] at found
      split at found
      · exact Or.inr (Or.inl ⟨_, List.getElem_mem _, operation, found.symm⟩)
      · exact Or.inl (found ▸ List.getElem_mem _)
  | copy index now id =>
      simp only [step] at member
      split at member
      · rename_i earlier present
        rcases List.mem_append.mp member with old | new
        · exact Or.inl old
        · refine Or.inr (Or.inr ⟨earlier, List.mem_of_getElem? present, now, id, ?_⟩)
          exact List.mem_singleton.mp new
      · exact Or.inl member

theorem after_induction (property : Expression → Prop)
    (operated : ∀ expression (operation : Operation), property expression →
      property (operation.apply expression))
    (copied : ∀ expression now id, property expression → property (expression.copy now id))
    (actions : List Action) (held : List Expression)
    (start : ∀ expression ∈ held, property expression) :
    ∀ expression ∈ after held actions, property expression := by
  induction actions generalizing held with
  | nil => exact start
  | cons action rest ih =>
      apply ih (step held action)
      intro expression member
      rcases mem_step member with
        old | ⟨earlier, old, operation, rfl⟩ | ⟨earlier, old, now, id, rfl⟩
      · exact start expression old
      · exact operated earlier operation (start earlier old)
      · exact copied earlier now id (start earlier old)

def operateAll (expression : Expression) (operations : List Operation) : Expression :=
  operations.foldl (fun expression operation => operation.apply expression) expression

def operationsAt (index : Nat) (actions : List Action) : List Operation :=
  actions.filterMap fun
    | .operate other operation => if other = index then some operation else none
    | .copy .. => none

theorem getElem?_step {held : List Expression} {index : Nat} {expression : Expression}
    (found : held[index]? = some expression) (action : Action) :
    (step held action)[index]? = some (expression.operateAll (operationsAt index [action])) := by
  cases action with
  | operate other operation =>
      by_cases same : other = index <;> simp [step, operationsAt, operateAll, same, found]
  | copy other now id =>
      have bound : index < held.length := (List.getElem?_eq_some_iff.mp found).1
      simp only [step, operationsAt, operateAll]
      split
      · rw [List.getElem?_append_left bound]
        exact found
      · exact found

/-- What comes of an expression depends on the operations that are on it, and on no others. -/
theorem getElem?_after {held : List Expression} {index : Nat} {expression : Expression}
    (found : held[index]? = some expression) (actions : List Action) :
    (after held actions)[index]? = some (expression.operateAll (operationsAt index actions)) := by
  induction actions generalizing held expression with
  | nil => exact found
  | cons action rest ih =>
      have parts : operationsAt index (action :: rest) =
          operationsAt index [action] ++ operationsAt index rest := by
        rw [operationsAt, ← List.singleton_append, List.filterMap_append]
        rfl
      calc (after (step held action) rest)[index]?
          = some ((expression.operateAll (operationsAt index [action])).operateAll
              (operationsAt index rest)) := ih (getElem?_step found action)
        _ = some (expression.operateAll (operationsAt index (action :: rest))) := by
            rw [parts, operateAll, operateAll, operateAll, List.foldl_append]

end Reckoner.Expression
