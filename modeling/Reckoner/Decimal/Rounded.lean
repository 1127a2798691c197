import Reckoner.Decimal.Layout

/-!
Doubles rounded to a fixed number of places or of digits. The exact value of the double is rounded,
and a half goes to the even neighbour.
-/

namespace Reckoner.Decimal

def roundQuotient (numerator denominator : Nat) : Nat :=
  let quotient := numerator / denominator
  let rest := numerator % denominator
  if 2 * rest < denominator then quotient
  else if denominator < 2 * rest then quotient + 1
  else if quotient % 2 = 0 then quotient else quotient + 1

def Binary.roundAt (binary : Binary) (exponent : Int) : Nat :=
  let scale := Scale.between binary.exponent exponent
  roundQuotient (binary.significand * scale.right) scale.left

def Numeral.ofUnits (negative : Bool) (places : Nat) (units : Nat) : Numeral :=
  let part := digitList (units % tenTo places)
  ⟨negative, digitList (units / tenTo places),
    if places = 0 then [] else zeros (places - part.length) ++ part, none⟩

def fixedText (places : Nat) (value : Float) : String :=
  String.ofList <| match sizeOf value with
    | .zero => (Numeral.ofUnits (isNegative value) places 0).text []
    | .finite binary =>
        (Numeral.ofUnits (isNegative value) places (binary.roundAt (-(places : Int)))).text []
    | _ => nameOf value

/-- A positive value with `count` digits and an exponent. When rounding up reaches the next power
of ten, that power is written. -/
def Binary.significant (count : Nat) (negative : Bool) (binary : Binary) : Numeral :=
  let exponent := binary.leading - (count : Int) + 1
  let units := binary.roundAt exponent
  if units = tenTo count then .scientific negative (digitList (tenTo (count - 1))) (exponent + 1)
  else .scientific negative (digitList units) exponent

def significantText (count : Nat) (value : Float) : String :=
  String.ofList <| match sizeOf value with
    | .finite binary => (binary.significant count (isNegative value)).text []
    | _ => Layout.plain.write value

end Reckoner.Decimal
