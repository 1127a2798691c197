import Reckoner.Json.Number
import Reckoner.Token

/-!
The record of a token: its kind by name, its text and its position.
-/

namespace Reckoner.Token

open Reckoner.Json

def Kind.ofName? (name : String) : Option Kind :=
  Kind.all.find? fun kind => kind.name == name

def Kind.toJson (kind : Kind) : Value :=
  .ofString kind.name

def Kind.ofJson? (value : Value) : Option Kind :=
  value.name?.bind Kind.ofName?

def toJson (token : Token) : Value :=
  .record [("type", token.kind.toJson), ("value", .ofString token.text),
    ("position", .ofNat token.position)]

def ofJson? (value : Value) : Option Token := do
  match ← value.fields? ["type", "value", "position"] with
  | [some kind, some text, some position] =>
      return { kind := ← Kind.ofJson? kind, text := ← text.string?, position := ← position.word? }
  | _ => none

def listOfJson? : Value → Option (List Token)
  | .array items => items.mapM ofJson?
  | _ => none

end Reckoner.Token
