import Reckoner.Proofs.Expression.Lifecycle
import Reckoner.Proofs.Instant
import Reckoner.Proofs.Record.Term
import Reckoner.Proofs.Register
import Reckoner.Proofs.Token.Partition
import Reckoner.Proofs.Validity
import Reckoner.Record.Expression

/-!
Theory of the records of expressions. Each part of an expression is read back from its record: a
position if it fits a word, a double if its digits lead the reader to it again, the time of the
making if it is that of a clock, and a term if it does not nest deeper than records may. An
expression that was made and used here has no other positions, and its calls alone decide how deep
its record is.
-/

namespace Reckoner

open Reckoner.Json

theorem Token.Kind.ofJson?_toJson (kind : Token.Kind) :
    Token.Kind.ofJson? kind.toJson = some kind := by
  cases kind <;> rfl

theorem Token.ofJson?_toJson {token : Token} (fits : Word64.fits token.position = true) :
    Token.ofJson? token.toJson = some token := by
  have fields : token.toJson.fields? ["type", "value", "position"] =
      some [some token.kind.toJson, some (.ofString token.text), some (.ofNat token.position)] :=
    fields?_record _ (by simp)
  simp [Token.ofJson?, fields, Token.Kind.ofJson?_toJson, word?_ofNat fits]

theorem Token.listOfJson?_toJson {tokens : List Token}
    (fits : ∀ token ∈ tokens, Word64.fits token.position = true) :
    Token.listOfJson? (.array (tokens.map Token.toJson)) = some tokens :=
  mapM_map_eq_self fun token member => Token.ofJson?_toJson (fits token member)

theorem Category.ofJson?_toJson (category : Category) :
    Category.ofJson? category.toJson = some category := by
  cases category <;> rfl

theorem Instant.ofJson?_toJson {instant : Instant} (sound : instant.Sound) :
    Instant.ofJson? instant.toJson = some instant := by
  simp [Instant.ofJson?, Instant.toJson, Instant.read?_write sound]

theorem Register.ofJson?_toJson {change : Float → Float} {register : Register Float}
    (back : ∀ entry ∈ register.entries, (Value.ofFloat entry.2).float? = some (change entry.2)) :
    Register.ofJson? register.toJson = some (register.map change) := by
  let scalars := register.entries.map fun entry => (entry.1, scalarOf entry.2)
  have ascending : Ascending scalars := ascending_map scalarOf register.ascending
  have read : ((register.entries.map fun entry => (entry.1, Value.ofFloat entry.2)).map
      fun member => (some member.1, member.2)).mapM
        (fun member => do return (← member.1, ← scalar? member.2)) = some scalars := by
    rw [List.map_map]
    apply mapM_map_eq_some
    intro entry member
    simp [(scalar?_ofFloat (back entry member)).1]
  have converted : scalars.mapM (fun entry => (entry.2.toFloat?).map fun value =>
      (entry.1, value)) = some (register.map change).entries := by
    apply mapM_map_eq_some
    intro entry member
    simp [(scalar?_ofFloat (back entry member)).2]
  rw [Register.toJson, Value.record, Register.ofJson?, read]
  simp [Register.mapEntries?, Register.entries_ofList ascending, converted, Register.ofList_entries]

theorem orNull?_eq_map {α : Type} (read : Value → Option α) {value : Value}
    (filled : value ≠ .null) : orNull? read (some value) = (read value).map some := by
  cases value with
  | null => contradiction
  | _ => rfl

theorem orNull?_map {α β : Type} {read : Value → Option β} {write : α → Value} {result : α → β}
    (part : Option α) (filled : ∀ value, write value ≠ .null)
    (back : ∀ value, part = some value → read (write value) = some (result value)) :
    orNull? read (some ((part.map write).getD .null)) = some (part.map result) := by
  cases part with
  | none => rfl
  | some value => simp [orNull?_eq_map read (filled value), back value rfl]

theorem Term.toJson_ne_null (term : Term) : term.toJson ≠ .null := by
  cases term <;> simp [Term.toJson, Value.record]

namespace Expression

def doubles (expression : Expression) : List Float :=
  ((expression.term.map Term.numbers).getD []) ++ expression.bindings.entries.map (·.2)

def mapDoubles (change : Float → Float) (expression : Expression) : Expression :=
  { expression with
    term := expression.term.map (Term.mapNumbers change)
    bindings := expression.bindings.map change }

@[simp] theorem mapDoubles_same (expression : Expression) :
    expression.mapDoubles (fun value => value) = expression := by
  have term : Term.mapNumbers (fun value => value) = fun term => term := funext Term.mapNumbers_id
  have bindings : expression.bindings.map (fun value => value) = expression.bindings :=
    Register.map_id expression.bindings
  simp [mapDoubles, term, bindings]

structure RecordableAs (change : Float → Float) (expression : Expression) : Prop where
  tokens : ∀ token ∈ expression.tokens, Word64.fits token.position = true
  term : ∀ term, expression.term = some term →
    Term.ofJson? 1 term.toJson = some (term.mapNumbers change)
  bindings : ∀ entry ∈ expression.bindings.entries,
    (Value.ofFloat entry.2).float? = some (change entry.2)
  created : expression.created.Sound

abbrev Recordable (expression : Expression) : Prop :=
  expression.RecordableAs fun value => value

theorem writable_toJson (expression : Expression) : expression.toJson.isWritable := by
  have tokens : itemsSound isProper (expression.tokens.map Token.toJson) = true := by
    simp [itemsSound_eq_all, Token.toJson, allSound_record, Token.Kind.toJson, writable_ofNat]
  have term : ((expression.term.map Term.toJson).getD .null).allSound isProper = true := by
    cases expression.term with
    | none => rfl
    | some term => exact term.writable_toJson
  have message : ((expression.message.map Value.ofString).getD .null).allSound isProper = true := by
    cases expression.message <;> rfl
  have bindings : expression.bindings.toJson.allSound isProper = true := by
    simp [Register.toJson, allSound_record, writable_ofFloat]
  simp [toJson, allSound_record, Value.allSound, tokens, term, message, bindings, Category.toJson,
    Instant.toJson]

theorem fields?_toJson (expression : Expression) :
    expression.toJson.fields? ["id", "input", "tokens", "ast", "isValid", "errorMessage", "type",
      "createdAt", "variables"] =
        some [some (.ofString expression.id), some (.ofString expression.input),
          some (.array (expression.tokens.map Token.toJson)),
          some ((expression.term.map Term.toJson).getD .null), some (.bool expression.isValid),
          some ((expression.message.map Value.ofString).getD .null),
          some expression.category.toJson, some expression.created.toJson,
          some expression.bindings.toJson] :=
  fields?_record _ (by simp)

theorem ofJson?_toJson {change : Float → Float} {expression : Expression}
    (recordable : expression.RecordableAs change) (now : Instant) (build : Nat) :
    ofJson? now build expression.toJson =
      some ({ expression.mapDoubles change with build }.enter now
        (if expression.isValid then .valid else .invalid)) := by
  have term := orNull?_map expression.term Term.toJson_ne_null recordable.term
  have message : orNull? Value.string?
      (some ((expression.message.map Value.ofString).getD .null)) =
        some (expression.message.map fun message => message) :=
    orNull?_map expression.message (fun _ => nofun) fun _ _ => rfl
  rw [Option.map_id_fun'] at message
  simp only [ofJson?, fields?_toJson, Option.bind_eq_bind, Option.bind_some, Value.bool?,
    string?_ofString, Token.listOfJson?_toJson recordable.tokens, term, message,
    Category.ofJson?_toJson, Instant.ofJson?_toJson recordable.created,
    Register.ofJson?_toJson recordable.bindings]
  rfl

theorem load_recordable {change : Float → Float} {expression : Expression}
    (recordable : expression.RecordableAs change) (now : Instant) (build : Nat) :
    load now build expression.save = .ok ({ expression.mapDoubles change with build }.enter now
      (if expression.isValid then .valid else .invalid)) := by
  simp [load, save, read?_toText (writable_toJson expression), ofJson?_toJson recordable]

theorem load_save {expression : Expression} (recordable : expression.Recordable) (now : Instant)
    (build : Nat) :
    load now build expression.save = .ok ({ expression with build }.enter now
      (if expression.isValid then .valid else .invalid)) := by
  rw [load_recordable recordable, mapDoubles_same]

theorem checked_of_mem_after (now : Instant) (id : String) (category : Category) (text : String)
    (actions : List Action) : ∀ expression ∈ after [make now id category text] actions,
      expression.Coherent ∧
        (expression.tokens = [] ∨ Validity.check expression.input.toList = .ok ()) := by
  apply after_induction (fun expression => expression.Coherent ∧
    (expression.tokens = [] ∨ Validity.check expression.input.toList = .ok ()))
  case operated =>
    rintro expression operation ⟨coherent, checked⟩
    refine ⟨coherent.operated operation, ?_⟩
    rw [apply_input]
    cases valid : expression.isValid with
    | true => exact Or.inr (coherent.sound valid)
    | false =>
        have uncut : (operation.apply expression).tokens = expression.tokens := by
          cases operation with
          | tokenize now => simp [Operation.apply, tokenize, valid]
          | parse now build => rw [Operation.apply, parse_of_invalid valid]
          | assign name value => rfl
          | clearBindings => rfl
        rwa [uncut]
  case copied =>
    rintro expression now id ⟨coherent, checked⟩
    refine ⟨coherent.copied now id, ?_⟩
    rw [coherent.copied_input, coherent.copy_eq]
    exact checked
  case start =>
    intro expression member
    rw [List.mem_singleton.mp member]
    refine ⟨make_coherent now id category text, Or.inl ?_⟩
    unfold make
    extract_lets untried
    obtain ⟨isValid, message, state, made⟩ := validate_frame untried now
    rw [made]

theorem fits_of_check {text : String} (sound : Validity.check text.toList = .ok ()) :
    ∀ token ∈ Token.scan text, Word64.fits token.position = true := by
  intro token member
  have position := Token.position_le_of_mem_scan member
  have short := ((Validity.answers text.toList).ok_iff.mp sound).2.1
  have small : token.position < Word64.limit := by
    unfold Word64.limit
    omega
  exact decide_eq_true small

theorem Coherent.recordable {change : Float → Float} {expression : Expression}
    (coherent : expression.Coherent)
    (checked : expression.tokens = [] ∨ Validity.check expression.input.toList = .ok ())
    (shallow : ∀ term, expression.term = some term → term.callDepth ≤ 62)
    (back : ∀ value ∈ expression.doubles, (Value.ofFloat value).float? = some (change value))
    (created : expression.created.Sound) : expression.RecordableAs change := by
  constructor
  case tokens =>
    rcases coherent.cut with uncut | cut
    · simp [uncut]
    · rcases checked with uncut | sound
      · simp [uncut]
      · exact cut ▸ fits_of_check sound
  case term =>
    intro term found
    obtain ⟨valid, parsed⟩ := coherent.understood term found
    have read := Term.ofTokens_of_parse parsed
    apply Term.ofJson?_toJson
    case back =>
      intro value member
      exact back value (by simp [doubles, found, member])
    case fits =>
      intro position member
      obtain ⟨token, present, rfl⟩ := Term.positions_of_ofTokens read position member
      exact fits_of_check (coherent.sound valid) token present
    case shallow =>
      have calls := shallow term found
      rw [Term.depth_toJson_of_ofTokens read, Term.depthLimit]
      omega
  case bindings =>
    intro entry member
    exact back entry.2 (List.mem_append_right _ (List.mem_map_of_mem member))
  case created => exact created

/-- What is the same in a loaded expression as in the one that was saved, and its state, which is
made anew. -/
structure Restores (expression loaded : Expression) : Prop where
  id : loaded.id = expression.id
  input : loaded.input = expression.input
  tokens : loaded.tokens = expression.tokens
  term : loaded.term = expression.term
  isValid : loaded.isValid = expression.isValid
  message : loaded.message = expression.message
  category : loaded.category = expression.category
  created : loaded.created = expression.created
  bindings : loaded.bindings = expression.bindings
  phase : loaded.state.phase = if expression.isValid then .valid else .invalid
  tokenCount : loaded.state.snapshot.tokenCount = expression.tokens.length
  hasBindings : loaded.state.snapshot.hasBindings = true ↔ expression.bindings.entries ≠ []

/-- Whatever was done to a new expression and its copies, each of them is loaded as it was saved if
its calls nest at most 62 deep and its finite numbers are found again from their digits. Zeros,
infinities and the double that is no number always are. -/
theorem restores_of_mem_after (now : Instant) (id : String) (category : Category) (text : String)
    (actions : List Action) (expression : Expression)
    (held : expression ∈ after [make now id category text] actions)
    (shallow : ∀ term, expression.term = some term → term.callDepth ≤ 62)
    (back : ∀ value ∈ expression.doubles, ∀ binary, Decimal.sizeOf value = .finite binary →
      ReadsBack value)
    (created : expression.created.Sound) (later : Instant) (build : Nat) :
    ∃ loaded, load later build expression.save = .ok loaded ∧ Restores expression loaded := by
  obtain ⟨coherent, checked⟩ := checked_of_mem_after now id category text actions expression held
  have recordable : expression.Recordable := coherent.recordable checked shallow
    (fun value member => float?_ofFloat (back value member)) created
  refine ⟨_, load_save recordable later build, ?_⟩
  constructor
  case hasBindings => simp [enter, Register.isEmpty]
  all_goals rfl

theorem scan_call : Token.scan "sin(x)" = [⟨.function, "sin", 0⟩, ⟨.parenthesis, "(", 3⟩,
    ⟨.variable, "x", 4⟩, ⟨.parenthesis, ")", 5⟩] := by
  have text : "sin(x)".toList =
      's' :: ['i', 'n'] ++ ('(' :: [] ++ ('x' :: [] ++ (')' :: [] ++ []))) := by decide
  rw [Token.scan, text, Token.scanFrom_run rfl (List.all_eq_true.mp rfl) (by simp; decide),
    Token.scanFrom_run rfl (List.all_eq_true.mp rfl) (by simp; decide),
    Token.scanFrom_run rfl (List.all_eq_true.mp rfl) (by simp; decide),
    Token.scanFrom_run rfl (List.all_eq_true.mp rfl) (by simp), Token.scanFrom_nil]
  decide

theorem restores_bound_copy :
    let made := make .epoch "a" .function "sin(x)"
    let copied := ((Operation.parse .epoch 1).apply made).copy .epoch "b"
    let bound := (copied.clearBindings.assign "x" 0.5).assign "y" (-0.0)
    bound ∈ after [made] [.operate 0 (.parse .epoch 1), .copy 0 .epoch "b",
        .operate 1 .clearBindings, .operate 1 (.assign "x" 0.5), .operate 1 (.assign "y" (-0.0))] ∧
      ∃ loaded, load .epoch 2 bound.save = .ok loaded ∧ Restores bound loaded := by
  intro made copied bound
  have held : bound ∈ after [made] [.operate 0 (.parse .epoch 1), .copy 0 .epoch "b",
      .operate 1 .clearBindings, .operate 1 (.assign "x" 0.5),
      .operate 1 (.assign "y" (-0.0))] := by
    simp [after, step, bound, copied, Operation.apply]
  obtain ⟨coherent, input⟩ := coherent_of_mem_after .epoch "a" .function "sin(x)" _ bound held
  have parsed : Term.parse (Token.scan bound.input) =
      .ok (some (.call "sin" [.variable "x" 4] 0)) := by
    rw [input, show Text.trim "sin(x)" = "sin(x)" by decide, scan_call]
    rfl
  have read : ∀ term, bound.term = some term → term = .call "sin" [.variable "x" 4] 0 := by
    intro term found
    have again := (coherent.understood term found).2
    rw [parsed] at again
    cases again
    rfl
  have created : copied.created = .epoch := copy_created _ _ _
  -- From here on only the last three operations count, whatever was copied.
  clear_value copied
  have bindings : bound.bindings.entries = [("x", 0.5), ("y", -0.0)] := rfl
  refine ⟨held, restores_of_mem_after .epoch "a" .function "sin(x)" _ bound held ?shallow ?back
    ?created .epoch 2⟩
  case shallow =>
    intro term found
    rw [read term found]
    decide
  case back =>
    intro value member binary size
    have listed : value = 0.5 ∨ value = -0.0 := by
      cases found : bound.term with
      | none => simpa [doubles, bindings, found] using member
      | some term =>
          simpa [doubles, bindings, found, read term found, Term.numbers, Term.numbersOfAll]
            using member
    rcases listed with rfl | rfl
    · exact readsBack_half
    · contradiction
  case created =>
    rw [show bound.created = .epoch from created]
    constructor <;> decide

end Expression

end Reckoner
