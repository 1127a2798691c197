import Reckoner.Json.Number

/-!
Reading JSON. Each reader takes what it needs from the head of a text and returns the rest. The
reader of values has a bound on its steps, for which twice the length of the text is enough: of two
steps one takes a character.
-/

namespace Reckoner.Json

open Reckoner.Decimal

def skipSpace (text : List Char) : List Char :=
  text.dropWhile isSpace

/-- A unit of a string: a character, or an escape for half of a surrogate pair. -/
inductive Piece where
  | char (c : Char)
  | half (code : Nat)

def hexValue? (c : Char) : Option Nat :=
  if '0' ≤ c && c ≤ '9' then some (c.toNat - 48)
  else if 'a' ≤ c && c ≤ 'f' then some (c.toNat - 87)
  else if 'A' ≤ c && c ≤ 'F' then some (c.toNat - 55)
  else none

def pieceOfHex? (a b c d : Char) : Option Piece := do
  let high := (← hexValue? a) * 16 + (← hexValue? b)
  let low := (← hexValue? c) * 16 + (← hexValue? d)
  let code := high * 256 + low
  return if 0xD800 ≤ code && code < 0xE000 then .half code else .char (Char.ofNat code)

def shortEscape? (c : Char) : Option Char :=
  if c = '"' then some '"'
  else if c = '\\' then some '\\'
  else if c = '/' then some '/'
  else if c = 'b' then some '\x08'
  else if c = 'f' then some '\x0c'
  else if c = 'n' then some '\n'
  else if c = 'r' then some '\r'
  else if c = 't' then some '\t'
  else none

def readPieces? : List Char → Option (List Piece × List Char)
  | [] => none
  | '"' :: rest => some ([], rest)
  | '\\' :: 'u' :: a :: b :: c :: d :: rest =>
      (pieceOfHex? a b c d).bind fun piece =>
        (readPieces? rest).map fun (pieces, rest) => (piece :: pieces, rest)
  | '\\' :: c :: rest =>
      (shortEscape? c).bind fun plain =>
        (readPieces? rest).map fun (pieces, rest) => (.char plain :: pieces, rest)
  | c :: rest =>
      if c.toNat < 32 || c = '\\' then none
      else (readPieces? rest).map fun (pieces, rest) => (.char c :: pieces, rest)

/-- The characters that units stand for. A first half needs the second half right behind it. -/
def joinPieces? : List Piece → Option (List Char)
  | [] => some []
  | .char c :: rest => (joinPieces? rest).map (c :: ·)
  | .half high :: .half low :: rest =>
      if high < 0xDC00 && 0xDC00 ≤ low then
        let c := Char.ofNat (0x10000 + (high - 0xD800) * 0x400 + (low - 0xDC00))
        (joinPieces? rest).map (c :: ·)
      else none
  | .half _ :: _ => none

def readText? (text : List Char) : Option (Option String × List Char) :=
  (readPieces? text).map fun (pieces, rest) => ((joinPieces? pieces).map String.ofList, rest)

def readPart? : List Char → Option (List Char × List Char)
  | '.' :: rest =>
      let digits := rest.takeWhile isDecimalDigit
      if digits.isEmpty then none else some (digits, rest.dropWhile isDecimalDigit)
  | text => some ([], text)

def readExponent? : List Char → Option (Option Int × List Char)
  | mark :: rest =>
      if mark = 'e' || mark = 'E' then
        let (negative, text) := match rest with
          | '-' :: text => (true, text)
          | '+' :: text => (false, text)
          | text => (false, text)
        let digits := text.takeWhile isDecimalDigit
        let value : Int := digitsValue 0 digits
        if digits.isEmpty then none
        else some (some (if negative then -value else value), text.dropWhile isDecimalDigit)
      else some (none, mark :: rest)
  | [] => some (none, [])

def readWhole? : List Char → Option (List Char × List Char)
  | '0' :: rest => some (['0'], rest)
  | text =>
      let digits := text.takeWhile isDecimalDigit
      if digits.isEmpty then none else some (digits, text.dropWhile isDecimalDigit)

def readNumeral? (text : List Char) : Option (Numeral × List Char) := do
  let (negative, text) := match text with
    | '-' :: text => (true, text)
    | text => (false, text)
  let (whole, text) ← readWhole? text
  let (part, text) ← readPart? text
  let (exponent, text) ← readExponent? text
  return (⟨negative, whole, part, exponent⟩, text)

mutual

def readValue? : Nat → List Char → Option (Value × List Char)
  | 0, _ => none
  | fuel + 1, text =>
      match skipSpace text with
      | 'n' :: 'u' :: 'l' :: 'l' :: rest => some (.null, rest)
      | 't' :: 'r' :: 'u' :: 'e' :: rest => some (.bool true, rest)
      | 'f' :: 'a' :: 'l' :: 's' :: 'e' :: rest => some (.bool false, rest)
      | '"' :: rest => (readText? rest).map fun (content, rest) => (.text content, rest)
      | '[' :: rest =>
          match skipSpace rest with
          | ']' :: rest => some (.array [], rest)
          | _ => (readItems? fuel rest).map fun (items, rest) => (.array items, rest)
      | '{' :: rest =>
          match skipSpace rest with
          | '}' :: rest => some (.object [], rest)
          | _ => (readMembers? fuel rest).map fun (members, rest) => (.object members, rest)
      | text => (readNumeral? text).map fun (numeral, rest) => (.number numeral, rest)

def readItems? : Nat → List Char → Option (List Value × List Char)
  | 0, _ => none
  | fuel + 1, text =>
      (readValue? fuel text).bind fun (item, rest) =>
        match skipSpace rest with
        | ',' :: rest => (readItems? fuel rest).map fun (items, rest) => (item :: items, rest)
        | ']' :: rest => some ([item], rest)
        | _ => none

def readMembers? : Nat → List Char → Option (List (Option String × Value) × List Char)
  | 0, _ => none
  | fuel + 1, text =>
      match skipSpace text with
      | '"' :: rest =>
          (readText? rest).bind fun (key, rest) =>
            match skipSpace rest with
            | ':' :: rest =>
                (readValue? fuel rest).bind fun (item, rest) =>
                  match skipSpace rest with
                  | ',' :: rest =>
                      (readMembers? fuel rest).map fun (members, rest) =>
                        ((key, item) :: members, rest)
                  | '}' :: rest => some ([(key, item)], rest)
                  | _ => none
            | _ => none
      | _ => none

end

def read? (text : String) : Option Value :=
  let characters := text.toList
  match readValue? (2 * characters.length + 1) characters with
  | some (value, rest) => if (skipSpace rest).isEmpty then some value else none
  | none => none

end Reckoner.Json
