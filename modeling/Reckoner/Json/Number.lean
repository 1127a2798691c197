import Reckoner.Decimal.Reading
import Reckoner.Json.Value
import Reckoner.Word64

/-!
Numbers of JSON as whole numbers and as doubles. A numeral without point and exponent that fits a
word of 64 bits is exact. Any other becomes a double in a fixed number of steps: its digits are
gathered into one word as long as they fit, the word is rounded to a double, and the double is
multiplied or divided by a power of ten. Each step rounds, so the result is often but not always the
double nearest to what is written.
-/

namespace Reckoner.Json

open Reckoner.Decimal

def layout : Layout where
  positional := fun lead => -5 ≤ lead && lead < 16
  pointZero := true
  exponentPlus := true
  tie := .even

inductive Number where
  | natural (value : Nat)
  | negative (size : Nat)
  | real (value : Float)

/-- The digits of the whole part gathered after `start`, and how many of them did not fit. -/
def gatherWhole (start : Nat) : List Char → Nat × Nat
  | [] => (start, 0)
  | digit :: rest =>
      let next := digitsValue start [digit]
      if Word64.fits next then gatherWhole next rest else (start, rest.length + 1)

def gatherPart (start : Nat) : List Char → Nat × Nat
  | [] => (start, 0)
  | digit :: rest =>
      let next := digitsValue start [digit]
      if Word64.fits next then
        let (value, count) := gatherPart next rest
        (value, count + 1)
      else (start, 0)

def powerLimit : Nat := 308

def powerOfTen (exponent : Nat) : Float :=
  Float.ofScientific 1 false exponent

def scaleUp? (value : Float) (exponent : Nat) : Option Float :=
  if exponent ≤ powerLimit then
    let scaled := value * powerOfTen exponent
    if scaled.isInf then none else some scaled
  else if value == 0.0 then some value
  else none

def scaleDown (value : Float) (exponent : Nat) : Float :=
  if exponent ≤ powerLimit then value / powerOfTen exponent
  else if value == 0.0 then value
  else scaleDown (value / powerOfTen powerLimit) (exponent - powerLimit)
  termination_by exponent
  decreasing_by
    simp only [powerLimit] at *
    omega

def scale? (word : Nat) (exponent : Int) : Option Float :=
  let value := ofWord word
  if exponent < 0 then some (scaleDown value exponent.natAbs) else scaleUp? value exponent.natAbs

/-- Written exponents up to here are added to the gathered one; the text of a larger one decides
alone. -/
def writtenLimit : Nat := 2147483648

def sizeOf? (numeral : Numeral) : Option Float :=
  let (whole, left) := gatherWhole 0 numeral.whole
  let (word, used) := gatherPart whole numeral.part
  let gathered := (left : Int) - used
  match numeral.exponent with
  | none => scale? word gathered
  | some written =>
      if written.natAbs < writtenLimit then scale? word (gathered + written)
      else if 0 < written && word != 0 then none
      else some 0.0

def number? (numeral : Numeral) : Option Number :=
  let value := digitsValue 0 numeral.whole
  let isWhole := numeral.part.isEmpty && numeral.exponent.isNone
  if isWhole && !numeral.negative && Word64.fits value then some (.natural value)
  else if isWhole && numeral.negative && 0 < value && Word64.fitsSigned (-value) then
    some (.negative value)
  else (sizeOf? numeral).map fun size => .real (if numeral.negative then -size else size)

def Number.toFloat : Number → Float
  | .natural value => ofWord value
  | .negative size => -(ofWord size)
  | .real value => value

def isNumber (numeral : Numeral) : Bool :=
  (number? numeral).isSome

def Value.word? : Value → Option Nat
  | .number numeral => match number? numeral with
      | some (.natural value) => some value
      | _ => none
  | _ => none

def Value.ofNat (value : Nat) : Value :=
  .number ⟨false, digitList value, [], none⟩

inductive Scalar where
  | number (value : Float)
  | named (name : String)

def scalar? : Value → Option Scalar
  | .number numeral => (number? numeral).map fun number => .number number.toFloat
  | .text content => content.map .named
  | _ => none

def Scalar.toFloat? : Scalar → Option Float
  | .number value => some value
  | .named name =>
      if name = "Infinity" then some (1.0 / 0.0)
      else if name = "-Infinity" then some (-(1.0 / 0.0))
      else if name = "NaN" then some (0.0 / 0.0)
      else none

def Value.float? (value : Value) : Option Float :=
  (scalar? value).bind Scalar.toFloat?

def nameOf (value : Float) : String :=
  match Decimal.sizeOf value with
  | .infinite => if isNegative value then "-Infinity" else "Infinity"
  | _ => "NaN"

def Value.ofFloat (value : Float) : Value :=
  match layout.numeral? value with
  | some numeral => .number numeral
  | none => .ofString (nameOf value)

end Reckoner.Json
