import Reckoner.Proofs.Expression.Outcome
import Reckoner.Proofs.Record.Expression

/-!
Expressions by their origin: made of a text, or loaded from a record. Nothing in a record is checked
but its form, so that it may call an expression valid whose text has nothing to read. All others are
valid or invalid again after they have been read, and a term is missing just if they are invalid.
-/

namespace Reckoner.Expression

open Reckoner.Text

inductive Obtained : Expression → Prop
  | made (now : Instant) (id : String) (category : Category) (text : String) :
      Obtained (make now id category text)
  | loaded {now : Instant} {build : Nat} {text : String} {expression : Expression}
      (read : load now build text = .ok expression) : Obtained expression

def recorded (input : String) (tokens : List Token) : Expression :=
  { id := "a", input, tokens, term := none, isValid := true, message := none,
    category := .arithmetic, created := .epoch, bindings := .empty,
    state := ⟨.valid, .epoch, ⟨tokens.length, false⟩⟩, build := 0 }

/-- An expression that is called valid although its text has nothing to read. -/
def Hollow (expression : Expression) : Prop :=
  expression.isValid = true ∧ ∀ c ∈ expression.input.toList, isBlank c = true

structure Concludes (answer : Expression × Option Term) : Prop where
  settled : answer.1.state.phase = .valid ∨ answer.1.state.phase = .invalid
  none_iff : answer.2 = none ↔ answer.1.isValid = false

section
variable {now : Instant} {build : Nat} {expression : Expression}

theorem ofJson?_entered {value : Json.Value} (read : ofJson? now build value = some expression) :
    ∃ loaded : Expression,
      expression = loaded.enter now (if loaded.isValid then .valid else .invalid) := by
  unfold ofJson? at read
  simp only [Option.bind_eq_bind, Option.bind_eq_some_iff] at read
  obtain ⟨fields, -, read⟩ := read
  split at read
  · simp only [Option.bind_eq_some_iff] at read
    obtain ⟨isValid, -, id, -, input, -, tokens, -, term, -, message, -, category, -, created, -,
      bindings, -, same⟩ := read
    exact ⟨_, (Option.some.inj same).symm⟩
  · contradiction

theorem load_entered {text : String} (read : load now build text = .ok expression) :
    ∃ loaded : Expression,
      expression = loaded.enter now (if loaded.isValid then .valid else .invalid) := by
  unfold load at read
  split at read
  · rename_i found present
    cases read
    obtain ⟨value, -, read⟩ := Option.bind_eq_some_iff.mp present
    exact ofJson?_entered read
  · contradiction

theorem recordable_recorded {tokens : List Token}
    (fits : ∀ token ∈ tokens, Word64.fits token.position = true) (input : String) :
    (recorded input tokens).Recordable := by
  constructor
  case tokens => exact fits
  case term => simp [recorded]
  case bindings => simp [recorded, Register.empty]
  case created =>
    change Instant.epoch.Sound
    constructor <;> decide

theorem load_recorded {tokens : List Token}
    (fits : ∀ token ∈ tokens, Word64.fits token.position = true) (input : String) :
    load now build (recorded input tokens).save =
      .ok ({ recorded input tokens with build }.enter now .valid) :=
  load_save (recordable_recorded fits input) now build

theorem Obtained.phased (obtained : Obtained expression) : expression.Phased := by
  cases obtained with
  | made now id category text => exact (make_coherent now id category text).phase
  | loaded read =>
      obtain ⟨loaded, rfl⟩ := load_entered read
      cases valid : loaded.isValid with
      | true => exact Or.inr ⟨Or.inl rfl, valid⟩
      | false => exact Or.inl ⟨rfl, valid⟩

theorem not_hollow_make (now : Instant) (id : String) (category : Category) (text : String) :
    ¬(make now id category text).Hollow := by
  rintro ⟨valid, blank⟩
  have coherent := make_coherent now id category text
  exact coherent.scanned valid ((Token.scan_eq_nil_iff _).mpr blank)

theorem Hollow.of_apply {operation : Operation} (hollow : (operation.apply expression).Hollow) :
    expression.Hollow := by
  obtain ⟨valid, blank⟩ := hollow
  rw [apply_input] at blank
  exact ⟨isValid_of_apply valid, blank⟩

theorem Hollow.of_copy {id : String} (hollow : (expression.copy now id).Hollow) :
    expression.Hollow := by
  rw [copy_eq] at hollow
  exact ⟨hollow.1, (forall_isBlank_trim_iff expression.input).mp hollow.2⟩

theorem phased_of_mem_after {first : Expression} (obtained : Obtained first)
    (actions : List Action) : ∀ expression ∈ after [first] actions,
      expression.Phased ∧ (expression.Hollow → first.Hollow) := by
  apply after_induction fun expression =>
    expression.Phased ∧ (expression.Hollow → first.Hollow)
  case operated =>
    rintro expression operation ⟨phased, solid⟩
    exact ⟨phased.apply operation, fun hollow => solid hollow.of_apply⟩
  case copied =>
    rintro expression now id ⟨phased, solid⟩
    exact ⟨phased.copy now id, fun hollow => solid hollow.of_copy⟩
  case start =>
    intro expression member
    rw [List.mem_singleton.mp member]
    exact ⟨obtained.phased, fun hollow => hollow⟩

theorem Outcome.none_iff {answer : Expression × Option Term}
    (outcome : Outcome expression now build answer) :
    answer.2 = none ↔ answer.1.isValid = false ∨ answer.1.tokens = [] := by
  obtain ⟨tokens, state, frame⟩ := expression.readied_frame now
  cases outcome with
  | refused invalid => simp [invalid]
  | bare valid uncut nothing => simp [tokenized, nothing]
  | understood valid filled term =>
      have kept : (expression.readied now).isValid = true := by rw [frame]; exact valid
      simp [enter, kept, filled]
  | misread => simp [invalidate, enter]

theorem Outcome.settled {answer : Expression × Option Term}
    (outcome : Outcome expression now build answer) (phased : expression.Phased)
    (ended : answer.1.isValid = false ∨ answer.1.tokens ≠ []) :
    answer.1.state.phase = .valid ∨ answer.1.state.phase = .invalid := by
  cases outcome with
  | refused invalid =>
      rcases phased with ⟨phase, -⟩ | ⟨-, valid⟩
      · exact Or.inr phase
      · simp [valid] at invalid
  | bare valid uncut nothing =>
      rcases ended with invalid | filled
      · have kept : expression.isValid = false := invalid
        simp [valid] at kept
      · exact absurd nothing filled
  | understood => exact Or.inl rfl
  | misread => exact Or.inr rfl

theorem Outcome.ended {answer : Expression × Option Term}
    (outcome : Outcome expression now build answer) (solid : ¬expression.Hollow) :
    answer.1.isValid = false ∨ answer.1.tokens ≠ [] := by
  cases outcome with
  | refused invalid => exact Or.inl invalid
  | bare valid uncut nothing =>
      exact absurd ⟨valid, (Token.scan_eq_nil_iff expression.input).mp nothing⟩ solid
  | understood valid filled => exact Or.inr filled
  | misread => exact Or.inl rfl

theorem Outcome.concludes {answer : Expression × Option Term}
    (outcome : Outcome expression now build answer) (phased : expression.Phased)
    (solid : ¬expression.Hollow) : Concludes answer := by
  have ended := outcome.ended solid
  constructor
  case settled => exact outcome.settled phased ended
  case none_iff =>
    rw [outcome.none_iff]
    exact or_iff_left_of_imp fun bare => ended.resolve_right fun filled => filled bare

end

/-- What the reading of an expression leaves: a term is missing where the expression is invalid or
has no tokens, and in every other case the phase is not that of a reading that goes on. The case of
no tokens is that of a record which calls a text valid that has nothing to read. -/
theorem parse_concludes {first : Expression} (obtained : Obtained first) (actions : List Action)
    (expression : Expression) (held : expression ∈ after [first] actions) (now : Instant)
    (build : Nat) :
    let answer := expression.parse now build
    (answer.2 = none ↔ answer.1.isValid = false ∨ answer.1.tokens = []) ∧
      (answer.1.isValid = false ∨ answer.1.tokens ≠ [] →
        answer.1.state.phase = .valid ∨ answer.1.state.phase = .invalid) ∧
      (¬first.Hollow → Concludes answer) ∧
      ∀ time id category text, first = make time id category text → Concludes answer := by
  intro answer
  obtain ⟨phased, origin⟩ := phased_of_mem_after obtained actions expression held
  have outcome := expression.parse_outcome now build
  have concludes : ¬first.Hollow → Concludes answer := fun solid =>
    outcome.concludes phased fun hollow => solid (origin hollow)
  refine ⟨outcome.none_iff, outcome.settled phased, concludes, ?_⟩
  rintro time id category text rfl
  exact concludes (not_hollow_make time id category text)

theorem parse_concludes_padded :
    ∃ loaded, load .epoch 0 (recorded " x " []).save = .ok loaded ∧ ¬loaded.Hollow ∧
      let copied := (Operation.tokenize .epoch).apply (loaded.copy .epoch "b")
      copied ∈ after [loaded] [.copy 0 .epoch "b", .operate 1 (.tokenize .epoch)] ∧
        Concludes (copied.parse .epoch 1) := by
  obtain ⟨loaded, read, solid⟩ :
      ∃ loaded, load .epoch 0 (recorded " x " []).save = .ok loaded ∧ ¬loaded.Hollow := by
    refine ⟨_, load_recorded (by simp) " x ", ?_⟩
    rintro ⟨-, blank⟩
    exact absurd (blank 'x' (by decide)) (by decide)
  refine ⟨loaded, read, solid, ?_⟩
  intro copied
  have held : copied ∈ after [loaded] [.copy 0 .epoch "b", .operate 1 (.tokenize .epoch)] := by
    simp [after, step, copied]
  exact ⟨held, (parse_concludes (.loaded read) _ copied held .epoch 1).2.2.1 solid⟩

/-- A record that calls the empty text valid is loaded, and reading it stops half-way. -/
theorem unsettled_hollow :
    ∃ loaded, load .epoch 0 (recorded "" []).save = .ok loaded ∧
      (loaded.parse .epoch 1).1.state.phase = .parsing ∧ (loaded.parse .epoch 1).2 = none ∧
        (loaded.parse .epoch 1).1.isValid = true := by
  refine ⟨_, load_recorded (by simp) "", ?_⟩
  simp [parse, enter, recorded, tokenized, Token.scan, Token.scanFrom_nil]

end Reckoner.Expression
