import Reckoner.Decimal.Layout
import Reckoner.Word64

/-!
Spans of time in whole nanoseconds. The text of a span is a number of the largest unit that it
reaches, from seconds down, with as many digits behind the point as are exact.
-/

namespace Reckoner.Span

open Reckoner.Decimal

def perSecond : Nat := 1000000000

def secondLimit : Nat := Word64.limit

def limit : Nat := secondLimit * perSecond

def ofMillis (millis : Nat) : Nat :=
  millis * 1000000

def ofParts? (seconds nanos : Nat) : Option Nat :=
  let span := seconds * perSecond + nanos
  if span < limit then some span else none

def dropTrailingZeros (digits : List Char) : List Char :=
  (digits.reverse.dropWhile (· == '0')).reverse

def inUnits (places : Nat) (span : Nat) : List Char :=
  let rest := digitList (span % tenTo places)
  let part := dropTrailingZeros (zeros (places - rest.length) ++ rest)
  digitList (span / tenTo places) ++ (if part.isEmpty then [] else '.' :: part)

def text (span : Nat) : String :=
  String.ofList <|
    if perSecond ≤ span then inUnits 9 span ++ ['s']
    else if 1000000 ≤ span then inUnits 6 span ++ ['m', 's']
    else if 1000 ≤ span then inUnits 3 span ++ ['µ', 's']
    else inUnits 0 span ++ ['n', 's']

end Reckoner.Span
