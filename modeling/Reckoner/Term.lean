import Reckoner.Decimal.Layout

/-!
Terms: the trees that expressions are read as. A leaf is a number or a variable and a branch is the
call of a function. Every node knows the byte position of the token that gave it.
-/

namespace Reckoner

inductive Term where
  | number (value : Float) (position : Nat)
  | variable (name : String) (position : Nat)
  | call (name : String) (arguments : List Term) (position : Nat)

namespace Term

def position : Term → Nat
  | .number _ position => position
  | .variable _ position => position
  | .call _ _ position => position

def arguments : Term → List Term
  | .call _ arguments _ => arguments
  | _ => []

mutual

def display : Term → String
  | .number value _ => Decimal.plainText value
  | .variable name _ => name
  | .call name arguments _ => name ++ "(" ++ displayAll arguments ++ ")"

def displayAll : List Term → String
  | [] => ""
  | [argument] => argument.display
  | argument :: rest => argument.display ++ ", " ++ displayAll rest

end

mutual

/-- Whether two terms are the same tree. Numbers are compared as numbers: the two zeros are equal,
and a value that is no number differs from itself. -/
def same : Term → Term → Bool
  | .number value position, .number value' position' => value == value' && position == position'
  | .variable name position, .variable name' position' => name == name' && position == position'
  | .call name arguments position, .call name' arguments' position' =>
      name == name' && sameAll arguments arguments' && position == position'
  | _, _ => false

def sameAll : List Term → List Term → Bool
  | [], [] => true
  | term :: rest, term' :: rest' => same term term' && sameAll rest rest'
  | _, _ => false

end

def callDepth : Term → Nat
  | .call _ (argument :: _) _ => argument.callDepth + 1
  | .call _ [] _ => 1
  | _ => 0

end Term

end Reckoner
