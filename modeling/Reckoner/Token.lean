import Reckoner.Text.Quoted
import Reckoner.Word64

/-!
Tokens: the words of an expression, each with its kind, its text and the byte position in the
source where it starts.
-/

namespace Reckoner

inductive Token.Kind where
  | number
  | operator
  | function
  | variable
  | parenthesis
  | constant
  | unknown
  deriving DecidableEq

def Token.Kind.name : Token.Kind → String
  | .number => "NUMBER"
  | .operator => "OPERATOR"
  | .function => "FUNCTION"
  | .variable => "VARIABLE"
  | .parenthesis => "PARENTHESIS"
  | .constant => "CONSTANT"
  | .unknown => "UNKNOWN"

def Token.Kind.all : List Token.Kind :=
  [.number, .operator, .function, .variable, .parenthesis, .constant, .unknown]

structure Token where
  kind : Token.Kind
  text : String
  position : Nat
  deriving DecidableEq

namespace Token

def stop (token : Token) : Nat :=
  token.position + token.text.utf8ByteSize

/-- Whether the token ends at a position that fits an unsigned word. Only a loaded token can fail
to, since its position is taken as it stands. -/
def endsInWord (token : Token) : Bool :=
  Word64.fits token.stop

def isParen (token : Token) (paren : Char) : Bool :=
  token.kind == .parenthesis && token.text.toList.head? == some paren

def display (token : Token) : String :=
  token.kind.name ++ " " ++ Text.quoted token.text ++ "@" ++ toString token.position

end Token

end Reckoner
