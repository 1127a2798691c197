import Reckoner.Expression
import Reckoner.Text.Paint

/-!
The display of an expression: one line for each part that it has, each with a painted label.
-/

namespace Reckoner

def Category.title : Category → String
  | .arithmetic => "Arithmetic"
  | .scientific => "Scientific"
  | .matrix => "Matrix"
  | .geometry => "Geometry"
  | .equation => "Equation"
  | .logic => "Logic"
  | .function => "Function"

def Phase.title : Phase → String
  | .created => "Created"
  | .parsing => "Parsing"
  | .valid => "Valid"
  | .invalid => "Invalid"
  | .evaluating => "Evaluating"
  | .completed => "Completed"
  | .error => "Error"

namespace Expression

def displayLine (coloured : Bool) (colour : Text.Colour) (label content : String) : String :=
  "    " ++ Text.paint coloured colour label ++ ": " ++ content ++ "\n"

def displayValidity (coloured : Bool) (expression : Expression) : String :=
  match expression.message with
  | some message => displayLine coloured .red "Error" message
  | none => displayLine coloured .cyan "Valid" (if expression.isValid then "true" else "false")

def displayTokens (coloured : Bool) (tokens : List Token) : String :=
  if tokens.isEmpty then ""
  else
    displayLine coloured .cyan "Tokens"
      ("[" ++ ", ".intercalate (tokens.map Token.display) ++ "]")

def displayTerm (coloured : Bool) : Option Term → String
  | some term => displayLine coloured .cyan "AST" term.display
  | none => ""

def displayBindings (coloured : Bool) (bindings : Register Float) : String :=
  if bindings.isEmpty then ""
  else displayLine coloured .cyan "Variables" (", ".intercalate
    (bindings.entries.map fun entry => entry.1 ++ " = " ++ Decimal.plainText entry.2))

def display (coloured : Bool) (expression : Expression) : String :=
  "\x7b\n" ++ displayLine coloured .cyan "Expression" expression.input ++
    displayLine coloured .cyan "Type" expression.category.title ++
    displayLine coloured .cyan "Phase" expression.state.phase.title ++
    displayValidity coloured expression ++ displayTokens coloured expression.tokens ++
    displayTerm coloured expression.term ++ displayBindings coloured expression.bindings ++ "\x7d"

end Expression

end Reckoner
