import Reckoner.Expression
import Reckoner.Json.Reader
import Reckoner.Json.Writer
import Reckoner.Record.Term
import Reckoner.Record.Token

/-!
The records of an expression and of its state. All of an expression is saved but its state, which is
made anew from its validity when it is loaded. Nothing that is loaded is checked beyond its form.
-/

namespace Reckoner

open Reckoner.Json

def Category.toJson (category : Category) : Value :=
  .ofString category.name

def Category.ofJson? (value : Value) : Option Category :=
  value.name?.bind fun name => Category.all.find? fun category => category.name == name

def Phase.toJson (phase : Phase) : Value :=
  .ofString phase.name

def Phase.ofJson? (value : Value) : Option Phase :=
  value.name?.bind fun name => Phase.all.find? fun phase => phase.name == name

def Instant.toJson (instant : Instant) : Value :=
  .ofString (String.ofList instant.write)

def Instant.ofJson? (value : Value) : Option Instant :=
  value.string?.bind fun text => Instant.read? text.toList

def Snapshot.toJson (snapshot : Snapshot) : Value :=
  .record [("tokenCount", .ofNat snapshot.tokenCount), ("hasVariables", .bool snapshot.hasBindings)]

def Snapshot.ofJson? (value : Value) : Option Snapshot := do
  match ← value.fields? ["tokenCount", "hasVariables"] with
  | [some count, some bindings] => return ⟨← count.word?, ← bindings.bool?⟩
  | _ => none

def State.toJson (state : State) : Value :=
  .record [("phase", state.phase.toJson), ("timestamp", state.since.toJson),
    ("metadata", state.snapshot.toJson)]

def State.ofJson? (value : Value) : Option State := do
  match ← value.fields? ["phase", "timestamp", "metadata"] with
  | [some phase, some since, some snapshot] =>
      return ⟨← Phase.ofJson? phase, ← Instant.ofJson? since, ← Snapshot.ofJson? snapshot⟩
  | _ => none

def Register.toJson (register : Register Float) : Value :=
  .record (register.entries.map fun entry => (entry.1, .ofFloat entry.2))

/-- The doubles that an object files under names. Of a name given twice the last value counts, and
only that one needs to be a double's name where it is a name at all. -/
def Register.ofJson? : Value → Option (Register Float)
  | .object members => do
      let scalars ← members.mapM fun member => do return (← member.1, ← scalar? member.2)
      (Register.ofList scalars).mapEntries? Scalar.toFloat?
  | _ => none

def orNull? {α : Type} (read : Value → Option α) : Option Value → Option (Option α)
  | none => some none
  | some .null => some none
  | some value => (read value).map some

namespace Expression

def toJson (expression : Expression) : Value :=
  .record [("id", .ofString expression.id), ("input", .ofString expression.input),
    ("tokens", .array (expression.tokens.map Token.toJson)),
    ("ast", (expression.term.map Term.toJson).getD .null), ("isValid", .bool expression.isValid),
    ("errorMessage", (expression.message.map Value.ofString).getD .null),
    ("type", expression.category.toJson), ("createdAt", expression.created.toJson),
    ("variables", expression.bindings.toJson)]

def ofJson? (now : Instant) (build : Nat) (value : Value) : Option Expression := do
  match ← value.fields? ["id", "input", "tokens", "ast", "isValid", "errorMessage", "type",
      "createdAt", "variables"] with
  | [some id, some input, some tokens, term, some isValid, message, some category, some created,
      some bindings] =>
      let isValid ← isValid.bool?
      let loaded : Expression :=
        { id := ← id.string?, input := ← input.string?, tokens := ← Token.listOfJson? tokens
          term := ← orNull? (Term.ofJson? 1) term, isValid
          message := ← orNull? Value.string? message, category := ← Category.ofJson? category
          created := ← Instant.ofJson? created, bindings := ← Register.ofJson? bindings
          state := ⟨.created, now, ⟨0, false⟩⟩, build }
      return loaded.enter now (if isValid then .valid else .invalid)
  | _ => none

def save (expression : Expression) : String :=
  expression.toJson.toText

def load (now : Instant) (build : Nat) (text : String) : Except Refusal Expression :=
  match (read? text).bind (ofJson? now build) with
  | some expression => .ok expression
  | none => .error .unreadable

end Expression

end Reckoner
