import Reckoner.Decimal.Layout
import Reckoner.Text.Quoted

/-!
Keys: the texts by which arguments are remembered. Each kind of argument has a text that names it
without doubt: a number by its digits, a text in quotes, a pair in parentheses and a list in
brackets.
-/

namespace Reckoner.Key

open Reckoner.Decimal

def layout : Layout where
  positional := fun lead => -4 ≤ lead && lead < 16
  pointZero := true
  exponentPlus := false
  tie := .up

def ofFloat (value : Float) : String :=
  String.ofList (layout.write value)

def ofInt (value : Int) : String :=
  toString value

def ofString (value : String) : String :=
  Text.quoted value

def ofPair (first second : Int) : String :=
  "(" ++ ofInt first ++ ", " ++ ofInt second ++ ")"

def ofList (values : List Float) : String :=
  "[" ++ ", ".intercalate (values.map ofFloat) ++ "]"

end Reckoner.Key
