import Reckoner.Alphabet
import Reckoner.Token

/-!
Scanning cuts a text into tokens from left to right. White space ends a token and makes none. A
token is a first character together with the longest run that extends it: digits and points after
a digit, letters after a letter, and nothing after any other character. Scanning never fails,
since a character of no class is a token of the kind `unknown`.
-/

namespace Reckoner.Token

open Reckoner.Text Reckoner.Alphabet

def functionNames : List String :=
  ["sin", "cos", "tan", "ln", "log", "sqrt", "abs"]

def isFunctionName (text : String) : Bool :=
  functionNames.contains (String.ofList (text.toList.map Char.toLower))

def extendsBy (first next : Char) : Bool :=
  if isDigit first then isDigit next || isPoint next else isLetter first && isLetter next

def kindOf (first : Char) (text : String) : Kind :=
  if isDigit first then .number
  else if isLetter first then (if isFunctionName text then .function else .variable)
  else if isOperator first then .operator
  else if isParenthesis first then .parenthesis
  else if isConstant first then .constant
  else .unknown

/-- The tokens of a text whose first character stands at byte `position` of the source. -/
def scanFrom (position : Nat) : List Char → List Token
  | [] => []
  | c :: rest =>
      if isBlank c then scanFrom (position + c.utf8Size) rest
      else
        let text := String.ofList (c :: rest.takeWhile (extendsBy c))
        { kind := kindOf c text, text, position } ::
          scanFrom (position + text.utf8ByteSize) (rest.dropWhile (extendsBy c))
  termination_by text => text.length
  decreasing_by
    · simp
    · exact Nat.lt_succ_of_le (List.dropWhile_suffix _).length_le

def scan (text : String) : List Token :=
  scanFrom 0 text.toList

end Reckoner.Token
