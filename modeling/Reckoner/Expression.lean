import Reckoner.Instant
import Reckoner.Register
import Reckoner.Term.Grammar
import Reckoner.Token.Scan
import Reckoner.Validity

/-!
Expressions and their life. An expression is validated when it is made and then advanced by its own
operations: it is cut into tokens, and read as a term. A fault of the text or of the grammar is not
an error of the operation but becomes part of the expression, which is from then on invalid and
changes no more. Time, identity and the label of a construction come from outside.
-/

namespace Reckoner

inductive Category where
  | arithmetic
  | scientific
  | matrix
  | geometry
  | equation
  | logic
  | function
  deriving DecidableEq

def Category.all : List Category :=
  [.arithmetic, .scientific, .matrix, .geometry, .equation, .logic, .function]

def Category.name : Category → String
  | .arithmetic => "arithmetic"
  | .scientific => "scientific"
  | .matrix => "matrix"
  | .geometry => "geometry"
  | .equation => "equation"
  | .logic => "logic"
  | .function => "function"

inductive Phase where
  | created
  | parsing
  | valid
  | invalid
  | evaluating
  | completed
  | error
  deriving DecidableEq

def Phase.all : List Phase :=
  [.created, .parsing, .valid, .invalid, .evaluating, .completed, .error]

def Phase.name : Phase → String
  | .created => "created"
  | .parsing => "parsing"
  | .valid => "valid"
  | .invalid => "invalid"
  | .evaluating => "evaluating"
  | .completed => "completed"
  | .error => "error"

structure Snapshot where
  tokenCount : Nat
  hasBindings : Bool
  deriving DecidableEq

structure State where
  phase : Phase
  since : Instant
  snapshot : Snapshot
  deriving DecidableEq

/-- An expression. The `build` is the label of the construction that gave its term, so that two
expressions share the arguments of their terms when they agree in it. -/
structure Expression where
  id : String
  input : String
  tokens : List Token
  term : Option Term
  isValid : Bool
  message : Option String
  category : Category
  created : Instant
  bindings : Register Float
  state : State
  build : Nat

namespace Expression

inductive Refusal where
  | invalid
  | unreadable
  deriving DecidableEq

def Refusal.message : Refusal → String
  | .invalid => "cannot tokenize an invalid expression"
  | .unreadable => "failed to (de)serialize expression"

def enter (expression : Expression) (now : Instant) (phase : Phase) : Expression :=
  { expression with
    state := ⟨phase, now, ⟨expression.tokens.length, !expression.bindings.isEmpty⟩⟩ }

def invalidate (expression : Expression) (now : Instant) (message : String) : Expression :=
  { expression with isValid := false, message := some message }.enter now .invalid

def validate (expression : Expression) (now : Instant) : Expression :=
  match Validity.check expression.input.toList with
  | .ok () => { expression with isValid := true, message := none }.enter now .valid
  | .error fault => expression.invalidate now fault.message

def make (now : Instant) (id : String) (category : Category) (text : String) : Expression :=
  let untried : Expression :=
    { id, input := Text.trim text, tokens := [], term := none, isValid := false, message := none,
      category, created := now, bindings := .empty, state := ⟨.created, now, ⟨0, false⟩⟩,
      build := 0 }
  untried.validate now

def tokenized (expression : Expression) (now : Instant) : Expression :=
  { expression.enter now .parsing with tokens := Token.scan expression.input }

def tokenize (expression : Expression) (now : Instant) : Except Refusal Expression :=
  if expression.isValid then .ok (expression.tokenized now) else .error .invalid

def parseTokens (expression : Expression) (now : Instant) (build : Nat) : Expression :=
  match Term.parse expression.tokens with
  | .ok term => { expression with term, build }.enter now .valid
  | .error misfit => { expression with term := none }.invalidate now misfit.message

/-- The expression after it has been read as a term, from new tokens if it has none, and the term.
An invalid expression stays as it is, and so does one that has no tokens even then. -/
def parse (expression : Expression) (now : Instant) (build : Nat) : Expression × Option Term :=
  if expression.isValid then
    let ready := if expression.tokens.isEmpty then expression.tokenized now else expression
    if ready.tokens.isEmpty then (ready, none)
    else
      let parsed := ready.parseTokens now build
      (parsed, parsed.term)
  else (expression, none)

def assign (expression : Expression) (name : String) (value : Float) : Expression :=
  { expression with bindings := expression.bindings.insert name value }

def clearBindings (expression : Expression) : Expression :=
  { expression with bindings := .empty }

/-- A copy under a new identity, made anew from the text and then given all that the expression has
become. It shares the arguments of the term. -/
def copy (expression : Expression) (now : Instant) (id : String) : Expression :=
  let fresh := make now id expression.category expression.input
  { fresh with
    tokens := expression.tokens
    term := expression.term
    build := expression.build
    isValid := expression.isValid
    message := expression.message
    bindings := expression.bindings }.enter now expression.state.phase

def sharing? (expression other : Expression) : Option (Bool × Bool) :=
  match expression.term, other.term with
  | some term, some term' =>
      let shared := match term, term' with
        | .call .., .call .. => expression.build == other.build
        | _, _ => false
      some (Term.same term term', shared)
  | _, _ => none

end Expression

end Reckoner
