import Reckoner.Decimal.Shortest

/-!
Numerals and layouts. A numeral is a number as it is written: its sign, the digits before and
behind the point, and an exponent. A layout says how the shortest decimal of a double is set out as
a numeral: which magnitudes are written without an exponent, and how a whole number ends.
-/

namespace Reckoner.Decimal

def digitList (value : Nat) : List Char :=
  Nat.toDigits 10 value

def zeros (count : Nat) : List Char :=
  List.replicate count '0'

/-- A number as it is written. There is no point when `part` is empty. -/
structure Numeral where
  negative : Bool
  whole : List Char
  part : List Char
  exponent : Option Int
  deriving DecidableEq

structure Layout where
  /-- Whether a value whose leading digit has this exponent is written without one. -/
  positional : Int → Bool
  pointZero : Bool
  exponentPlus : Bool
  tie : Tie

/-- The plain layout: a point wherever it falls, never an exponent, and a whole number bare. -/
def Layout.plain : Layout where
  positional := fun _ => true
  pointZero := false
  exponentPlus := false
  tie := .up

def signed (negative : Bool) (text : List Char) : List Char :=
  if negative then '-' :: text else text

def Numeral.text (plus : List Char) (numeral : Numeral) : List Char :=
  let point := if numeral.part.isEmpty then [] else '.' :: numeral.part
  let exponent := match numeral.exponent with
    | none => []
    | some exponent =>
        'e' :: (if exponent < 0 then ['-'] else plus) ++ digitList exponent.natAbs
  signed numeral.negative (numeral.whole ++ point ++ exponent)

def Numeral.positional (negative : Bool) (trailing digits : List Char) (exponent : Int) : Numeral :=
  let lead := (digits.length : Int) + exponent
  if 0 ≤ exponent then ⟨negative, digits ++ zeros exponent.toNat, trailing, none⟩
  else if 0 < lead then ⟨negative, digits.take lead.toNat, digits.drop lead.toNat, none⟩
  else ⟨negative, ['0'], zeros (-lead).toNat ++ digits, none⟩

def Numeral.scientific (negative : Bool) (digits : List Char) (exponent : Int) : Numeral :=
  ⟨negative, digits.take 1, digits.drop 1, some ((digits.length : Int) + exponent - 1)⟩

def Layout.trailing (layout : Layout) : List Char :=
  if layout.pointZero then ['0'] else []

def Layout.finite (layout : Layout) (negative : Bool) (binary : Binary) : Numeral :=
  let decimal := binary.shortest layout.tie
  let digits := digitList decimal.digits
  if layout.positional ((digits.length : Int) + decimal.exponent - 1) then
    .positional negative layout.trailing digits decimal.exponent
  else .scientific negative digits decimal.exponent

def Layout.numeral? (layout : Layout) (value : Float) : Option Numeral :=
  match sizeOf value with
  | .zero => some ⟨isNegative value, ['0'], layout.trailing, none⟩
  | .finite binary => some (layout.finite (isNegative value) binary)
  | _ => none

def nameOf (value : Float) : List Char :=
  match sizeOf value with
  | .infinite => signed (isNegative value) ['i', 'n', 'f']
  | _ => ['N', 'a', 'N']

def Layout.plusSign (layout : Layout) : List Char :=
  if layout.exponentPlus then ['+'] else []

def Layout.write (layout : Layout) (value : Float) : List Char :=
  match layout.numeral? value with
  | some numeral => numeral.text layout.plusSign
  | none => nameOf value

def plainText (value : Float) : String :=
  String.ofList (Layout.plain.write value)

end Reckoner.Decimal
