import Reckoner.Alphabet

/-!
Validity of an expression's text. Four rules are tried in a fixed order, and the first that fails
gives the fault: the text is not empty, it has at most `maxLength` characters, every character is
in the alphabet, and its parentheses are balanced.
-/

namespace Reckoner

inductive Fault where
  | empty
  | tooLong
  | foreignCharacter
  | unbalanced
  deriving DecidableEq

def Fault.message : Fault → String
  | .empty => "expression must not be empty"
  | .tooLong => "expression exceeds maximum length"
  | .foreignCharacter => "expression contains invalid characters"
  | .unbalanced => "unbalanced parentheses"

def Fault.wrapped (fault : Fault) : String :=
  "invalid expression: " ++ fault.message

namespace Validity

/-- The most characters, not bytes, that an expression may have. -/
def maxLength : Nat := 1000

def depthAfter? (depth : Nat) : List Char → Option Nat
  | [] => some depth
  | c :: rest =>
      if c = '(' then depthAfter? (depth + 1) rest
      else if c = ')' then
        match depth with
        | 0 => none
        | outer + 1 => depthAfter? outer rest
      else depthAfter? depth rest

def isBalanced (text : List Char) : Bool :=
  depthAfter? 0 text == some 0

def check (text : List Char) : Except Fault Unit :=
  if text.isEmpty then .error .empty
  else if maxLength < text.length then .error .tooLong
  else if !text.all Alphabet.isAllowed then .error .foreignCharacter
  else if !isBalanced text then .error .unbalanced
  else .ok ()

end Validity

end Reckoner
