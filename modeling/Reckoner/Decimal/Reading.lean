import Reckoner.Decimal.Binary

/-!
Reading the text of a double: an optional sign, then a name of infinity, the name of no number, or
digits with an optional point and an optional exponent. The double nearest to the decimal value is
the answer, and an even one where two are equally near.
-/

namespace Reckoner.Decimal

def isDecimalDigit (c : Char) : Bool :=
  '0' ≤ c && c ≤ '9'

def digitsValue (start : Nat) (digits : List Char) : Nat :=
  digits.foldl (fun value digit => value * 10 + (digit.toNat - 48)) start

/-- Beyond these powers of ten every value is infinite, or zero. -/
def exponentLimit : Int := 400

def nearest (digits : Nat) (exponent : Int) : Float :=
  let lead := (digitCount digits : Int) + exponent
  if digits = 0 then 0.0
  else if exponentLimit < lead then 1.0 / 0.0
  else if lead < -exponentLimit then 0.0
  else if 0 ≤ exponent then Float.ofScientific digits false exponent.toNat
  else Float.ofScientific digits true (-exponent).toNat

def readExponent? : List Char → Option Int
  | [] => some 0
  | mark :: rest =>
      if mark = 'e' || mark = 'E' then
        let (negative, digits) := match rest with
          | '-' :: digits => (true, digits)
          | '+' :: digits => (false, digits)
          | digits => (false, digits)
        if digits.isEmpty || !digits.all isDecimalDigit then none
        else some (if negative then -(digitsValue 0 digits : Int) else (digitsValue 0 digits : Int))
      else none

/-- A number's text without a sign: digits with an optional point, of which there is at least one
on either side, and an optional exponent. -/
def readDigits? (text : List Char) : Option Float :=
  let whole := text.takeWhile isDecimalDigit
  let afterWhole := text.dropWhile isDecimalDigit
  let (part, rest) := match afterWhole with
    | '.' :: fraction => (fraction.takeWhile isDecimalDigit, fraction.dropWhile isDecimalDigit)
    | _ => ([], afterWhole)
  if whole.isEmpty && part.isEmpty then none
  else (readExponent? rest).map fun exponent =>
    nearest (digitsValue (digitsValue 0 whole) part) (exponent - part.length)

def readUnsigned? (text : List Char) : Option Float :=
  let lower := text.map Char.toLower
  if lower = ['i', 'n', 'f'] || lower = ['i', 'n', 'f', 'i', 'n', 'i', 't', 'y'] then
    some (1.0 / 0.0)
  else if lower = ['n', 'a', 'n'] then some (0.0 / 0.0)
  else readDigits? text

def read? : List Char → Option Float
  | '-' :: rest => (readUnsigned? rest).map fun value => -value
  | '+' :: rest => readUnsigned? rest
  | text => readUnsigned? text

end Reckoner.Decimal
