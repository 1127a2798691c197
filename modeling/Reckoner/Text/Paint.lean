/-!
Painted labels: a text between the terminal's codes for a colour and for the end of it. Where
colours are off a label is left bare.
-/

namespace Reckoner.Text

inductive Colour where
  | red
  | yellow
  | cyan

def Colour.code : Colour → String
  | .red => "31"
  | .yellow => "33"
  | .cyan => "36"

def paint (coloured : Bool) (colour : Colour) (label : String) : String :=
  if coloured then "\x1b[" ++ colour.code ++ "m" ++ label ++ "\x1b[0m" else label

def padLeft (width : Nat) (text : String) : String :=
  "".pushn ' ' (width - text.length) ++ text

end Reckoner.Text
