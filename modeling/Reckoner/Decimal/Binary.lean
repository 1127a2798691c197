/-!
The value of a double. A double is a sign and a size, and a finite size other than zero is a whole
number times a power of two, which is what the exact arithmetic of the decimal forms starts from.
-/

namespace Reckoner.Decimal

def twoTo (exponent : Nat) : Nat :=
  Nat.pow 2 exponent

def tenTo (exponent : Nat) : Nat :=
  Nat.pow 10 exponent

/-- The positive value `significand * 2 ^ exponent` of a double. It is `narrow` where the next
double below is only half as far away as the next above. -/
structure Binary where
  significand : Nat
  exponent : Int
  narrow : Bool
  deriving DecidableEq

inductive Size where
  | zero
  | finite (binary : Binary)
  | infinite
  | notANumber

def isNegative (value : Float) : Bool :=
  twoTo 63 ≤ value.toBits.toNat

/-- The size that 63 bits stand for: eleven of exponent above fifty-two of fraction. -/
def sizeOfBits (bits : Nat) : Size :=
  let fraction : Nat := bits % twoTo 52
  let biased : Nat := bits / twoTo 52 % twoTo 11
  if biased = 2047 then (if fraction = 0 then .infinite else .notANumber)
  else if biased = 0 then (if fraction = 0 then .zero else .finite ⟨fraction, -1074, false⟩)
  else .finite ⟨twoTo 52 + fraction, (biased : Int) - 1075, fraction == 0 && biased != 1⟩

def sizeOf (value : Float) : Size :=
  sizeOfBits value.toBits.toNat

def ofWord (value : Nat) : Float :=
  value.toUInt64.toFloat

def Binary.round (binary : Binary) : Nat :=
  let half := twoTo (-binary.exponent).toNat
  (2 * binary.significand * twoTo binary.exponent.toNat + half) / (2 * half)

def roundAway (value : Float) : Float :=
  match sizeOf value with
  | .finite binary =>
      if 0 ≤ binary.exponent then value
      else
        let size := ofWord binary.round
        if isNegative value then -size else size
  | _ => value

/-- Two factors that bring the binary value `n * 2 ^ binaryExponent` and the decimal value
`d * 10 ^ decimalExponent` to one scale: they compare as `n * right` and `d * left`. -/
structure Scale where
  left : Nat
  right : Nat

def Scale.between (binaryExponent decimalExponent : Int) : Scale where
  left := tenTo decimalExponent.toNat * twoTo (-binaryExponent).toNat
  right := twoTo binaryExponent.toNat * tenTo (-decimalExponent).toNat

def digitCount (value : Nat) : Nat :=
  (Nat.toDigits 10 value).length

def Binary.leading (binary : Binary) : Int :=
  let above := binary.significand * twoTo binary.exponent.toNat
  let below := twoTo (-binary.exponent).toNat
  if below ≤ above then (digitCount (above / below) : Int) - 1
  else -(digitCount ((below - 1) / above) : Int)

end Reckoner.Decimal
