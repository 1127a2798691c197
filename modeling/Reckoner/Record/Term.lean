import Reckoner.Json.Number
import Reckoner.Term

/-!
The record of a term. Each node is an object that names its shape in the field `type`, which may
stand anywhere, or an array that starts with that name. A record is read as a whole before its shape
is known, so that numbers out of range, broken strings and too deep nesting are refused even in
fields that are not used. Inside another node a shape may also be given by its number.
-/

namespace Reckoner.Term

open Reckoner.Json

inductive Shape where
  | number
  | variable
  | call

def Shape.name : Shape → String
  | .number => "number"
  | .variable => "variable"
  | .call => "function"

mutual

def toJson : Term → Value
  | .number value position =>
      .record [("type", .ofString Shape.number.name), ("value", .ofFloat value),
        ("position", .ofNat position)]
  | .variable name position =>
      .record [("type", .ofString Shape.variable.name), ("value", .ofString name),
        ("position", .ofNat position)]
  | .call name arguments position =>
      .record [("type", .ofString Shape.call.name), ("value", .ofString name),
        ("children", .array (listToJson arguments)), ("position", .ofNat position)]

def listToJson : List Term → List Value
  | [] => []
  | term :: rest => term.toJson :: listToJson rest

end

def Shape.ofName? (name : String) : Option Shape :=
  [Shape.number, .variable, .call].find? fun shape => shape.name == name

/-- The shape that a tag gives: by name, and inside another node also by number. -/
def Shape.ofTag? (nested : Bool) : Value → Option Shape
  | .text content => content.bind Shape.ofName?
  | .number numeral =>
      match nested, number? numeral with
      | true, some (.natural index) => [Shape.number, .variable, .call][index]?
      | _, _ => none
  | _ => none

def splitTag? : Value → Option (Value × Value)
  | .array (tag :: rest) => some (tag, .array rest)
  | .object members =>
      match members.filter (fun member => member.1 == some "type") with
      | [(_, tag)] => some (tag, .object (members.filter fun member => member.1 != some "type"))
      | _ => none
  | _ => none

def ofRecord? : Nat → Bool → Value → Option Term
  | 0, _, _ => none
  | fuel + 1, nested, value => do
      let (tag, rest) ← splitTag? value
      match ← Shape.ofTag? nested tag with
      | .number =>
          match ← rest.fields? ["value", "position"] with
          | [some scalar, some position] => return .number (← scalar.float?) (← position.word?)
          | _ => none
      | .variable =>
          match ← rest.fields? ["value", "position"] with
          | [some name, some position] => return .variable (← name.string?) (← position.word?)
          | _ => none
      | .call =>
          match ← rest.fields? ["value", "children", "position"] with
          | [some name, some (.array items), some position] =>
              return .call (← name.string?) (← items.mapM (ofRecord? fuel true)) (← position.word?)
          | _ => none

/-- Records nest at most this deep, whatever they are records of. -/
def depthLimit : Nat := 127

def ofJson? (outer : Nat) (value : Value) : Option Term :=
  if value.allSound isNumber && value.depth + outer ≤ depthLimit then
    ofRecord? (value.depth + 1) false value
  else none

end Reckoner.Term
