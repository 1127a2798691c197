import Reckoner.Text.Blank

/-!
The alphabet of the calculator: the classes of characters that its expressions are made of. The
classes overlap in one place, the letter `e`, which is also the name of a constant.
-/

namespace Reckoner.Alphabet

open Reckoner.Text

def isDigit (c : Char) : Bool :=
  '0' ≤ c && c ≤ '9'

def isLetter (c : Char) : Bool :=
  ('a' ≤ c && c ≤ 'z') || ('A' ≤ c && c ≤ 'Z')

def isOperator (c : Char) : Bool :=
  c == '+' || c == '-' || c == '*' || c == '/' || c == '^'

def isParenthesis (c : Char) : Bool :=
  c == '(' || c == ')'

def isConstant (c : Char) : Bool :=
  c == 'π' || c == 'e'

def isPoint (c : Char) : Bool :=
  c == '.'

def isAllowed (c : Char) : Bool :=
  isDigit c || isLetter c || isOperator c || isParenthesis c || c == '.' || c == ',' ||
    isBlank c || isConstant c

end Reckoner.Alphabet
