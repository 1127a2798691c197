import Reckoner.Decimal.Binary

/-!
The shortest decimal that reads back as a given double. For one digit, two, and so on the two
neighbours of the value on that decimal grid are tested against the interval of reals that round to
the value. The first grid with a neighbour in the interval decides, of two neighbours the nearer is
taken, and only an exact tie is left to the caller.
-/

namespace Reckoner.Decimal

structure Digits where
  digits : Nat
  exponent : Int
  deriving DecidableEq

inductive Tie where
  | up
  | even

/-- Whether `digits` on the scale lies among the reals that round to the value. The ends of that
interval belong to it when the significand is even. -/
def Binary.admits (binary : Binary) (scale : Scale) (digits : Nat) : Bool :=
  let place := 4 * digits * scale.left
  let low := (4 * binary.significand - (if binary.narrow then 1 else 2)) * scale.right
  let high := (4 * binary.significand + 2) * scale.right
  if binary.significand % 2 = 0 then low ≤ place && place ≤ high else low < place && place < high

def Binary.nearer (tie : Tie) (binary : Binary) (scale : Scale) (below : Nat) : Nat :=
  let twice := 2 * binary.significand * scale.right
  let middle := (2 * below + 1) * scale.left
  if twice < middle then below
  else if middle < twice then below + 1
  else match tie with
    | .up => below + 1
    | .even => if below % 2 = 0 then below else below + 1

def Binary.withDigits? (tie : Tie) (binary : Binary) (count : Nat) : Option Digits :=
  let exponent := binary.leading - (count : Int) + 1
  let scale := Scale.between binary.exponent exponent
  let below := binary.significand * scale.right / scale.left
  match binary.admits scale below, binary.admits scale (below + 1) with
  | true, true => some ⟨binary.nearer tie scale below, exponent⟩
  | true, false => some ⟨below, exponent⟩
  | false, true => some ⟨below + 1, exponent⟩
  | false, false => none

def Binary.exact (binary : Binary) : Digits where
  digits := binary.significand * twoTo binary.exponent.toNat * Nat.pow 5 (-binary.exponent).toNat
  exponent := min binary.exponent 0

def Digits.strip (decimal : Digits) : Digits :=
  if decimal.digits = 0 then decimal
  else if decimal.digits % 10 = 0 then Digits.strip ⟨decimal.digits / 10, decimal.exponent + 1⟩
  else decimal
  termination_by decimal.digits
  decreasing_by omega

/-- The shortest decimal that reads back as the value, and the nearest of the shortest. -/
def Binary.shortest (tie : Tie) (binary : Binary) : Digits :=
  (((List.range' 1 17).findSome? (binary.withDigits? tie)).getD binary.exact).strip

end Reckoner.Decimal
