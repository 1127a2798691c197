import Reckoner.Proofs.Expression.Agreement
import Reckoner.Proofs.Json.Readable
import Reckoner.Proofs.Record.Expression
import Reckoner.Proofs.Term.Depth

/-!
How deep a term may nest to be loaded again. The record of a term nests two deep for every call, and
it is refused as a whole where it nests deeper than records may. Nothing else is in the way of
loading: every number is read as some number. Texts nest deeper than their records may: the length
of a text leaves room for 249 calls, and its record for 62.
-/

namespace Reckoner

open Reckoner.Json

def reread (value : Float) : Float :=
  (Value.ofFloat value).float?.getD value

theorem float?_reread (value : Float) : (Value.ofFloat value).float? = some (reread value) := by
  obtain ⟨read, found⟩ := Option.isSome_iff_exists.mp (float?_isSome value)
  rw [reread, found, Option.getD_some]

/-- The shape of a term: its names, its nesting and its positions, whatever its numbers are. -/
def Term.outline (term : Term) : Term :=
  term.mapNumbers fun _ => 0.0

theorem Term.outline_mapNumbers (change : Float → Float) (term : Term) :
    (term.mapNumbers change).outline = term.outline :=
  mapNumbers_mapNumbers change _ term

theorem trim_tower (height : Nat) :
    Text.trim (String.ofList (tower height)) = String.ofList (tower height) := by
  have solid : ['l', 'n', '(', 'x', ')'].all (!Text.isBlank ·) = true := by decide
  rw [Text.trim, String.toList_ofList, Text.trimList_eq_self]
  intro c member
  simpa using List.all_eq_true.mp solid c (mem_tower member)

namespace Expression

theorem ofJson?_eq_none {expression : Expression} {term : Term}
    (found : expression.term = some term) (unread : Term.ofJson? 1 term.toJson = none)
    (now : Instant) (build : Nat) : ofJson? now build expression.toJson = none := by
  have refused : orNull? (Term.ofJson? 1) (some ((expression.term.map Term.toJson).getD .null)) =
      none := by
    rw [found, Option.map_some, Option.getD_some, orNull?_eq_map _ term.toJson_ne_null, unread]
    rfl
  simp only [ofJson?, fields?_toJson, Option.bind_eq_bind, Option.bind_some, Value.bool?,
    string?_ofString, refused]
  cases Token.listOfJson? (.array (expression.tokens.map Token.toJson)) <;> rfl

theorem load_of_deep {expression : Expression} {tokens : List Token} {term : Term}
    (found : expression.term = some term) (read : Term.ofTokens tokens = .ok term)
    (deep : 62 < term.callDepth) (now : Instant) (build : Nat) :
    load now build expression.save = .error .unreadable := by
  have unread : Term.ofJson? 1 term.toJson = none := by
    apply Term.ofJson?_eq_none
    rw [Term.depth_toJson_of_ofTokens read, Term.depthLimit]
    omega
  simp [load, save, read?_toText (writable_toJson expression), ofJson?_eq_none found unread]

theorem exists_term_tower (height : Nat) (short : height ≤ 249) (now : Instant) (id : String)
    (category : Category) (later : Instant) (build : Nat) :
    let made := make now id category (String.ofList (tower height))
    made.isValid = true ∧ ∃ term, (made.parse later build).2 = some term ∧
      (made.parse later build).1.term = some term ∧ term.callDepth = height := by
  have coherent := make_coherent now id category (String.ofList (tower height))
  have input := make_input now id category (String.ofList (tower height))
  rw [trim_tower] at input
  obtain ⟨term, read, deep⟩ := ofTokens_tower height 0 [] (by simp)
  rw [List.append_nil] at read
  have answered : ((make now id category (String.ofList (tower height))).parse later build).2 =
      some term := by
    rw [coherent.parse_eq_some_iff, input, Token.scan, String.toList_ofList]
    exact ⟨check_tower short, Term.parse_of_ofTokens read⟩
  obtain ⟨valid, found⟩ := held_of_parse answered
  exact ⟨valid, term, answered, found, deep⟩

structure Reloads (expression : Expression) (now : Instant) (build : Nat) : Prop where
  loaded : (∀ term, expression.term = some term → term.callDepth ≤ 62) →
    ∃ loaded, load now build expression.save = .ok loaded ∧
      Restores (expression.mapDoubles reread) loaded ∧
        loaded.term.map Term.outline = expression.term.map Term.outline
  refused : ∀ term, expression.term = some term → 62 < term.callDepth →
    load now build expression.save = .error .unreadable

/-- Whatever was done to a new expression and its copies, each of them is loaded again if its calls
nest at most 62 deep, with the shape that its term had, and else its record is refused. -/
theorem reloads_of_mem_after (now : Instant) (id : String) (category : Category) (text : String)
    (actions : List Action) (expression : Expression)
    (held : expression ∈ after [make now id category text] actions)
    (created : expression.created.Sound) (later : Instant) (build : Nat) :
    expression.Reloads later build := by
  obtain ⟨coherent, checked⟩ := checked_of_mem_after now id category text actions expression held
  constructor
  case loaded =>
    intro shallow
    have recordable : expression.RecordableAs reread :=
      coherent.recordable checked shallow (fun value _ => float?_reread value) created
    refine ⟨_, load_recordable recordable later build, ?_, ?_⟩
    · constructor
      case hasBindings => simp [enter, Register.isEmpty]
      all_goals rfl
    · change (expression.term.map (Term.mapNumbers reread)).map Term.outline = _
      rw [Option.map_map]
      exact congrFun (congrArg Option.map (funext (Term.outline_mapNumbers reread))) _
  case refused =>
    intro term found deep
    obtain ⟨valid, parsed⟩ := coherent.understood term found
    exact load_of_deep found (Term.ofTokens_of_parse parsed) deep later build

theorem copy_mem_after (expression : Expression) (operation : Operation) (now : Instant)
    (id : String) : (operation.apply expression).copy now id ∈
      after [expression] [.operate 0 operation, .copy 0 now id] := by
  simp [after, step]

theorem term_copy_parse (expression : Expression) (now later : Instant) (build : Nat)
    (id : String) :
    (((Operation.parse now build).apply expression).copy later id).term =
      (expression.parse now build).1.term := by
  rw [copy_eq]
  rfl

theorem reloads_tower_62 :
    let made := make .epoch "a" .arithmetic (String.ofList (tower 62))
    let copied := ((Operation.parse .epoch 1).apply made).copy .epoch "b"
    copied ∈ after [made] [.operate 0 (.parse .epoch 1), .copy 0 .epoch "b"] ∧
      (∃ term, copied.term = some term ∧ term.callDepth = 62) ∧
        ∃ loaded, load .epoch 2 copied.save = .ok loaded ∧
          loaded.term.map Term.outline = copied.term.map Term.outline := by
  obtain ⟨-, term, -, found, depth⟩ :=
    exists_term_tower 62 (by decide) .epoch "a" .arithmetic .epoch 1
  -- With the text in sight, each of the checks below would read it once more.
  generalize made : make .epoch "a" .arithmetic (String.ofList (tower 62)) = expression at found ⊢
  intro _ copied
  have held := copy_mem_after expression (.parse .epoch 1) .epoch "b"
  have read : copied.term = some term :=
    (term_copy_parse expression .epoch .epoch 1 "b").trans found
  have created : copied.created.Sound := by
    rw [copy_created _ .epoch "b"]
    constructor <;> decide
  have reloads : copied.Reloads .epoch 2 :=
    reloads_of_mem_after .epoch "a" .arithmetic _ _ copied (by rwa [made]) created .epoch 2
  obtain ⟨loaded, answered, -, outline⟩ := reloads.loaded fun other also => by
    cases read.symm.trans also
    exact Nat.le_of_eq depth
  exact ⟨held, ⟨term, read, depth⟩, loaded, answered, outline⟩

theorem load_tower {height : Nat} (deep : 62 < height) (short : height ≤ 249) (now : Instant)
    (id : String) (category : Category) (reading later : Instant) (build again : Nat) :
    load later again
      ((make now id category (String.ofList (tower height))).parse reading build).1.save =
        .error .unreadable := by
  have coherent := make_coherent now id category (String.ofList (tower height))
  obtain ⟨-, term, -, found, depth⟩ := exists_term_tower height short now id category reading build
  obtain ⟨valid, parsed⟩ := (coherent.parse reading build).understood term found
  exact load_of_deep found (Term.ofTokens_of_parse parsed) (depth ▸ deep) later again

/-- One call more than a record can hold, in a text of 253 characters. -/
theorem unread_tower_63 :
    let made := make .epoch "a" .arithmetic (String.ofList (tower 63))
    made.isValid = true ∧ (∃ term, (made.parse .epoch 1).2 = some term) ∧
      load .epoch 2 (made.parse .epoch 1).1.save = .error .unreadable := by
  obtain ⟨valid, term, read, -⟩ := exists_term_tower 63 (by decide) .epoch "a" .arithmetic .epoch 1
  exact ⟨valid, ⟨term, read⟩, load_tower (by decide) (by decide) .epoch "a" .arithmetic _ _ _ _⟩

end Expression

end Reckoner
