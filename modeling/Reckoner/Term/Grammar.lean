import Reckoner.Decimal.Reading
import Reckoner.Term
import Reckoner.Token

/-!
The grammar of terms. A term is a number, a variable, or a function followed by an opening
parenthesis and a term. It is read from the head of a list of tokens, and what stands behind it, the
closing parentheses included, is not looked at.
-/

namespace Reckoner

inductive Misfit where
  | endOfInput
  | unexpected (kind : Token.Kind) (text : String) (position : Nat)
  | missingParenthesis (name : String) (position : Nat)
  deriving DecidableEq

def Misfit.message : Misfit → String
  | .endOfInput => "unexpected end of input"
  | .unexpected kind text position =>
      "unexpected token type " ++ kind.name ++ " '" ++ text ++ "' at position " ++ toString position
  | .missingParenthesis name _ =>
      "function call missing opening parenthesis after '" ++ name ++ "'"

def Misfit.wrapped (misfit : Misfit) : String :=
  "failed to parse expression: " ++ misfit.message

namespace Term

def beforeSecondPoint (text : List Char) : List Char :=
  let whole := text.takeWhile (· != '.')
  match text.dropWhile (· != '.') with
  | point :: rest => whole ++ point :: rest.takeWhile (· != '.')
  | [] => whole

def dropTrailingPoints (text : List Char) : List Char :=
  (text.reverse.dropWhile (· == '.')).reverse

/-- The number that the longest sound beginning of a text stands for, and zero if there is none. -/
def leadingNumber (text : String) : Float :=
  (Decimal.read? (dropTrailingPoints (beforeSecondPoint text.toList))).getD 0.0

def ofTokens : List Token → Except Misfit Term
  | [] => .error .endOfInput
  | token :: rest =>
      match token.kind with
      | .number => .ok (.number (leadingNumber token.text) token.position)
      | .variable => .ok (.variable token.text token.position)
      | .function =>
          match rest with
          | [] => .error (.missingParenthesis token.text token.position)
          | next :: inner =>
              if next.isParen '(' then
                (ofTokens inner).map fun argument => .call token.text [argument] token.position
              else .error (.missingParenthesis token.text token.position)
      | kind => .error (.unexpected kind token.text token.position)

def parse (tokens : List Token) : Except Misfit (Option Term) :=
  if tokens.isEmpty then .ok none else (ofTokens tokens).map some

end Term

end Reckoner
