import Reckoner.Proofs.Record.Origin

/-!
The verdict on an expression: whether it is valid, and the message that says why it is not. Nothing
in a record keeps the two together, so that an expression may be loaded that is invalid without a
message or valid with one. All that is done to it later keeps the verdict, but for a reading that
fails: it makes a valid expression invalid and gives its own message.
-/

namespace Reckoner.Expression

open Reckoner.Json

structure Consistent (expression : Expression) : Prop where
  blamed : expression.isValid = false → ∃ message, expression.message = some message
  quiet : expression.isValid = true → expression.message = none

theorem consistent_iff (expression : Expression) :
    expression.Consistent ↔ expression.message.isSome = !expression.isValid := by
  constructor
  · intro consistent
    cases valid : expression.isValid with
    | false => simpa [Option.isSome_iff_exists] using consistent.blamed valid
    | true => simp [consistent.quiet valid]
  · intro agree
    constructor
    · intro invalid
      simpa [invalid, Option.isSome_iff_exists] using agree
    · intro valid
      simpa [valid] using agree

theorem Coherent.consistent {expression : Expression} (coherent : expression.Coherent) :
    expression.Consistent :=
  (consistent_iff expression).mpr coherent.message_isSome

/-- The verdict on an expression at a later time, by the verdict on it before. -/
inductive Verdict (earlier later : Expression) : Prop
  | kept (isValid : later.isValid = earlier.isValid) (message : later.message = earlier.message) :
      Verdict earlier later
  | changed (valid : earlier.isValid = true) (invalid : later.isValid = false) (misfit : Misfit)
      (message : later.message = some misfit.message) : Verdict earlier later

namespace Verdict

variable {earlier later last : Expression}

theorem trans (verdict : Verdict earlier later) (next : Verdict later last) :
    Verdict earlier last := by
  cases next with
  | kept isValid message =>
      cases verdict with
      | kept isValid' message' => exact kept (isValid.trans isValid') (message.trans message')
      | changed valid invalid misfit message' =>
          exact changed valid (isValid.trans invalid) misfit (message.trans message')
  | changed valid invalid misfit message =>
      cases verdict with
      | kept isValid _ => exact changed (isValid.symm.trans valid) invalid misfit message
      -- The verdict changes once only, from valid to invalid.
      | changed _ invalid' => simp [invalid'] at valid

theorem apply (expression : Expression) (operation : Operation) :
    Verdict expression (operation.apply expression) := by
  cases operation with
  | tokenize now =>
      cases valid : expression.isValid <;> simp only [Operation.apply, tokenize, valid] <;>
        exact kept rfl rfl
  | parse now build =>
      obtain ⟨tokens, state, frame⟩ := expression.readied_frame now
      rw [Operation.apply]
      have outcome := expression.parse_outcome now build
      generalize expression.parse now build = answer at outcome
      cases outcome with
      | refused => exact kept rfl rfl
      | bare => exact kept rfl rfl
      | understood => rw [frame]; exact kept rfl rfl
      | misread valid _ misfit => exact changed valid rfl misfit rfl
  | assign name value => exact kept rfl rfl
  | clearBindings => exact kept rfl rfl

theorem copy (expression : Expression) (now : Instant) (id : String) :
    Verdict expression (expression.copy now id) := by
  rw [copy_eq]
  exact kept rfl rfl

theorem of_mem_after {actions : List Action} (held : later ∈ after [earlier] actions) :
    Verdict earlier later := by
  revert later
  apply after_induction (Verdict earlier)
  case operated =>
    intro expression operation verdict
    exact verdict.trans (apply expression operation)
  case copied =>
    intro expression now id verdict
    exact verdict.trans (copy expression now id)
  case start =>
    intro expression member
    rw [List.mem_singleton.mp member]
    exact kept rfl rfl

theorem consistent_iff (verdict : Verdict earlier later) :
    later.Consistent ↔ earlier.Consistent ∨ earlier.isValid = true ∧ later.isValid = false := by
  cases verdict with
  | kept isValid message =>
      rw [Expression.consistent_iff, Expression.consistent_iff, isValid, message]
      simp
  | changed valid invalid misfit message =>
      rw [Expression.consistent_iff]
      simp [valid, invalid, message]

end Verdict

section
variable {now : Instant} {build : Nat} {loaded : Expression}

theorem verdict_ofJson? {saved : Expression}
    (read : ofJson? now build saved.toJson = some loaded) :
    loaded.isValid = saved.isValid ∧ loaded.message = saved.message := by
  have message : orNull? Value.string?
      (some ((saved.message.map Value.ofString).getD .null)) = some saved.message := by
    cases saved.message <;> rfl
  unfold ofJson? at read
  simp only [fields?_toJson, Option.bind_eq_bind, Option.bind_some, Value.bool?, message] at read
  simp only [Option.bind_eq_some_iff] at read
  obtain ⟨_, -, _, -, _, -, _, -, _, -, _, -, _, -, same⟩ := read
  cases same
  exact ⟨rfl, rfl⟩

theorem verdict_load {saved : Expression} (read : load now build saved.save = .ok loaded) :
    loaded.isValid = saved.isValid ∧ loaded.message = saved.message := by
  simp only [load, save, read?_toText (writable_toJson saved), Option.bind_some] at read
  split at read
  · rename_i found present
    cases read
    exact verdict_ofJson? present
  · contradiction

theorem consistent_of_load {saved : Expression} (consistent : saved.Consistent)
    (read : load now build saved.save = .ok loaded) : loaded.Consistent := by
  obtain ⟨isValid, message⟩ := verdict_load read
  rw [consistent_iff, isValid, message]
  exact (consistent_iff saved).mp consistent

end

/-- Whatever is done to a loaded expression and its copies, each of them has a message just if it is
invalid, provided that this was so when it was loaded, or that a reading has made it invalid since.
It is so of all that was saved, if it began with a text. -/
theorem consistent_after_load {now : Instant} {build : Nat} {text : String} {first : Expression}
    (read : load now build text = .ok first) (actions : List Action) (expression : Expression)
    (held : expression ∈ after [first] actions) :
    (expression.Consistent ↔
        first.Consistent ∨ first.isValid = true ∧ expression.isValid = false) ∧
      ∀ time id category source earlier, ∀ saved ∈ after [make time id category source] earlier,
        text = saved.save → expression.Consistent := by
  have consistent_iff := (Verdict.of_mem_after held).consistent_iff
  refine ⟨consistent_iff, ?_⟩
  rintro time id category source earlier saved member rfl
  obtain ⟨coherent, -⟩ := coherent_of_mem_after time id category source earlier saved member
  exact consistent_iff.mpr (Or.inl (consistent_of_load coherent.consistent read))

theorem consistent_after_load_unread :
    let made := make .epoch "a" .arithmetic "sin"
    ∃ loaded, load .epoch 1 made.save = .ok loaded ∧
      let read := (Operation.parse .epoch 2).apply loaded
      read ∈ after [loaded] [.operate 0 (.parse .epoch 2)] ∧ read.Consistent := by
  intro made
  obtain ⟨loaded, found⟩ : ∃ loaded, load .epoch 1 made.save = .ok loaded := by
    have recordable : made.Recordable := by
      refine (make_coherent .epoch "a" .arithmetic "sin").recordable ?_ ?_ ?_ ?_
      · exact Or.inl rfl
      · intro term found
        cases found
      · intro value member
        have none : value ∈ ([] : List Float) := member
        contradiction
      · constructor <;> decide
    exact ⟨_, load_save recordable .epoch 1⟩
  refine ⟨loaded, found, ?_⟩
  intro read
  have held : read ∈ after [loaded] [.operate 0 (.parse .epoch 2)] := by
    simp [after, step, read]
  have consistent := (consistent_after_load found _ read held).2
  exact ⟨held, consistent .epoch "a" .arithmetic "sin" [] made (List.mem_singleton_self made) rfl⟩

def judged (isValid : Bool) (message : Option String) : Expression :=
  { recorded "x" [] with isValid, message }

theorem load_judged (isValid : Bool) (message : Option String) :
    load .epoch 0 (judged isValid message).save =
      .ok ((judged isValid message).enter .epoch (if isValid then .valid else .invalid)) := by
  have recordable : (recorded "x" []).Recordable := recordable_recorded (by simp) "x"
  have recordable : (judged isValid message).Recordable := { recordable with }
  exact load_save recordable .epoch 0

/-- A record that gives no reason for its verdict is loaded, and so is one that gives a reason for
none. -/
theorem inconsistent_judged :
    (∃ loaded, load .epoch 0 (judged false none).save = .ok loaded ∧ loaded.isValid = false ∧
      loaded.message = none) ∧
    ∃ loaded, load .epoch 0 (judged true (some "no")).save = .ok loaded ∧ loaded.isValid = true ∧
      loaded.message = some "no" :=
  ⟨⟨_, load_judged false none, rfl, rfl⟩, ⟨_, load_judged true (some "no"), rfl, rfl⟩⟩

end Reckoner.Expression
