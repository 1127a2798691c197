import Reckoner.Counting
import Reckoner.Expression
import Reckoner.Json.Writer
import Reckoner.Record.Term

/-!
The commands of the program and what they print. Each is answered by the library alone: a text is
checked, shown as tokens or shown as a term, and two functions of whole numbers are computed.
-/

namespace Reckoner

inductive Command where
  | tokens (text : String)
  | ast (text : String)
  | validate (text : String)
  | factorial (n : Int)
  | combination (n k : Int)
  deriving DecidableEq

namespace Command

inductive Failure where
  | fault (cause : Fault)
  | invalid (cause : Fault)
  | refusal (cause : Expression.Refusal)
  | unreadable (text : String)
  | count (cause : Counting.Failure)
  deriving DecidableEq

def Failure.message : Failure → String
  | .fault cause => cause.message
  | .invalid cause => cause.wrapped
  | .refusal cause => cause.message
  | .unreadable text => text
  | .count cause => cause.message

def runTokens (text : String) : Except Failure String :=
  let trimmed := Text.trim text
  match Validity.check trimmed.toList with
  | .ok () => .ok ("\n".intercalate ((Token.scan trimmed).map Token.display))
  | .error fault => .error (.fault fault)

def expressionOf (text : String) : Expression :=
  .make .epoch "" .arithmetic text

/-- The term of a text as a record set out over lines. The tokens are asked for first, so that an
invalid text is refused there. -/
def runAst (text : String) : Except Failure String :=
  match (expressionOf text).tokenize .epoch with
  | .error refusal => .error (.refusal refusal)
  | .ok tokenized =>
      let (parsed, term) := tokenized.parse .epoch 1
      match term with
      | some term => .ok term.toJson.toLines
      | none => .error (.unreadable (parsed.message.getD "no expression"))

def runValidate (text : String) : Except Failure String :=
  match Validity.check (Text.trim text).toList with
  | .ok () => .ok "valid"
  | .error fault => .error (.invalid fault)

def runCount (answer : Except Counting.Failure Float) : Except Failure String :=
  match answer with
  | .ok value => .ok (Decimal.plainText value)
  | .error failure => .error (.count failure)

def run : Command → Except Failure String
  | .tokens text => runTokens text
  | .ast text => runAst text
  | .validate text => runValidate text
  | .factorial n => runCount (Counting.factorial n)
  | .combination n k => runCount (Counting.combination n k)

end Command

end Reckoner
