import Reckoner.Decimal.Binary
import Reckoner.Word64

/-!
Counting arrangements in doubles: factorials, combinations and permutations of whole numbers of one
signed word. Products grow to infinity instead of wrapping round. The whole numbers themselves are
checked: a step that leaves the signed word ends the computation.
-/

namespace Reckoner.Counting

open Reckoner.Decimal

inductive Failure where
  | negativeFactorial (n : Int)
  | overflow
  deriving DecidableEq

def Failure.message : Failure → String
  | .negativeFactorial n => "factorial is not defined for negative input: " ++ toString n
  | .overflow => "whole number out of range"

def maxFactorial : Int := 170

def infinity : Float := 1.0 / 0.0

def inWord (value : Int) : Except Failure Int :=
  if Word64.fitsSigned value then .ok value else .error .overflow

def toFloat (value : Int) : Float :=
  ofWord value.toNat

def risingProduct (first : Int) (count : Nat) : Float :=
  (List.range count).foldl (fun product (i : Nat) => product * toFloat (first + i)) 1.0

def factorial (n : Int) : Except Failure Float :=
  if n < 0 then .error (.negativeFactorial n)
  else if maxFactorial < n then .ok infinity
  else .ok (risingProduct 2 (n - 1).toNat)

/-- The product `n / 1 * (n - 1) / 2 * …` after `done` factors and for `left` more, each factor
multiplied before its divisor divides. It ends early once it is infinite. -/
def combinationFrom (n : Int) (done : Int) (product : Float) : Nat → Except Failure Float
  | 0 => .ok (roundAway product)
  | left + 1 => do
      let factor ← inWord (n - done)
      let divisor ← inWord (done + 1)
      let next := product * toFloat factor / toFloat divisor
      if next.isInf then return infinity
      else combinationFrom n (done + 1) next left

def combination (n k : Int) : Except Failure Float :=
  if k < 0 || n < k then .ok 0.0
  else if k = 0 || k = n then .ok 1.0
  else do
    let others ← inWord (n - k)
    combinationFrom n 0 1.0 (min k others).toNat

def permutation (n k : Int) : Except Failure Float :=
  if k < 0 || n < k then .ok 0.0
  else if maxFactorial < k then .ok infinity
  else do
    let others ← inWord (n - k)
    let first ← inWord (others + 1)
    return risingProduct first k.toNat

end Reckoner.Counting
