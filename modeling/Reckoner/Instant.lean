import Reckoner.Decimal.Layout
import Reckoner.Decimal.Reading
import Reckoner.Text.Blank

/-!
Instants: points of universal time by the proleptic Gregorian calendar, to the nanosecond. A leap
second is the sixtieth of its minute. An instant is written as a date, the letter T, a time of day
and the letter Z; it is read from looser forms too, with any offset from universal time.
-/

namespace Reckoner

structure Date where
  year : Int
  month : Nat
  day : Nat
  deriving DecidableEq

namespace Date

def isLeapYear (year : Int) : Bool :=
  year % 4 == 0 && (year % 100 != 0 || year % 400 == 0)

def daysInMonth (year : Int) (month : Nat) : Nat :=
  if month = 2 then (if isLeapYear year then 29 else 28)
  else if month = 4 || month = 6 || month = 9 || month = 11 then 30
  else 31

def firstYear : Int := -262143
def lastYear : Int := 262142

def isValid (date : Date) : Bool :=
  firstYear ≤ date.year && date.year ≤ lastYear && 1 ≤ date.month && date.month ≤ 12 &&
    1 ≤ date.day && date.day ≤ daysInMonth date.year date.month

def next (date : Date) : Date :=
  if date.day < daysInMonth date.year date.month then { date with day := date.day + 1 }
  else if date.month < 12 then { date with month := date.month + 1, day := 1 }
  else ⟨date.year + 1, 1, 1⟩

def previous (date : Date) : Date :=
  if 1 < date.day then { date with day := date.day - 1 }
  else if 1 < date.month then
    { date with month := date.month - 1, day := daysInMonth date.year (date.month - 1) }
  else ⟨date.year - 1, 12, 31⟩

end Date

/-- A date, the minute of its day, the second of that minute and the nanosecond of that second. -/
structure Instant where
  date : Date
  minute : Nat
  second : Nat
  nano : Nat
  deriving DecidableEq

namespace Instant

open Decimal Text

def epoch : Instant := ⟨⟨1970, 1, 1⟩, 0, 0, 0⟩

def minutesPerDay : Nat := 1440

def padded (width value : Nat) : List Char :=
  let digits := digitList value
  zeros (width - digits.length) ++ digits

def writeYear (year : Int) : List Char :=
  if year < 0 then '-' :: padded 4 year.natAbs
  else if 9999 < year then '+' :: padded 4 year.natAbs
  else padded 4 year.natAbs

def writeNano (nano : Nat) : List Char :=
  if nano = 0 then []
  else if nano % 1000000 = 0 then '.' :: padded 3 (nano / 1000000)
  else if nano % 1000 = 0 then '.' :: padded 6 (nano / 1000)
  else '.' :: padded 9 nano

def write (instant : Instant) : List Char :=
  writeYear instant.date.year ++ '-' :: padded 2 instant.date.month ++
    '-' :: padded 2 instant.date.day ++ 'T' :: padded 2 (instant.minute / 60) ++
    ':' :: padded 2 (instant.minute % 60) ++ ':' :: padded 2 instant.second ++
    writeNano instant.nano ++ ['Z']

def readNumber? (width : Nat) (text : List Char) : Option (Nat × List Char) :=
  let digits := (text.take width).takeWhile isDecimalDigit
  if digits.isEmpty then none else some (digitsValue 0 digits, text.drop digits.length)

def readField? (width : Nat) (text : List Char) : Option (Nat × List Char) :=
  readNumber? width (dropBlank text)

def readYear? (text : List Char) : Option (Int × List Char) :=
  match dropBlank text with
  | '-' :: rest => (readNumber? rest.length rest).map fun (value, rest) => (-(value : Int), rest)
  | '+' :: rest => (readNumber? rest.length rest).map fun (value, rest) => ((value : Int), rest)
  | text => (readNumber? 4 text).map fun (value, rest) => ((value : Int), rest)

def readMark? (mark : Char) (text : List Char) : Option (List Char) :=
  match dropBlank text with
  | c :: rest => if c = mark then some rest else none
  | [] => none

def readSeparator? : List Char → Option (List Char)
  | c :: rest => if c = 'T' || c = 't' || c = ' ' then some rest else none
  | [] => none

def readNano? : List Char → Option (Nat × List Char)
  | '.' :: rest =>
      let digits := rest.takeWhile isDecimalDigit
      if digits.isEmpty then none
      else
        let kept := digits.take 9
        some (digitsValue 0 kept * tenTo (9 - kept.length), rest.dropWhile isDecimalDigit)
  | text => some (0, text)

def readTwo? : List Char → Option (Nat × List Char)
  | first :: second :: rest =>
      if isDecimalDigit first && isDecimalDigit second then
        some (digitsValue 0 [first, second], rest)
      else none
  | _ => none

def readClock? (text : List Char) : Option (Nat × List Char) := do
  let (hours, text) ← readTwo? text
  let (minutes, text) ← readTwo? (text.dropWhile fun c => c == ':' || isBlank c)
  if hours < 24 && minutes < 60 then some (hours * 60 + minutes, text) else none

def readOffset? (text : List Char) : Option (Int × List Char) :=
  match text with
  | [] => none
  | c :: rest =>
      if (text.take 3).map Char.toLower = ['u', 't', 'c'] then some (0, text.drop 3)
      else if c = 'Z' || c = 'z' then some (0, rest)
      else if c = '+' then (readClock? rest).map fun (value, rest) => ((value : Int), rest)
      else if c = '-' || c = '−' then
        (readClock? rest).map fun (value, rest) => (-(value : Int), rest)
      else none

/-- The instant at which a clock that is ahead by `offset` minutes, less than a day, shows the given
one. -/
def behind (offset : Int) (shown : Instant) : Instant :=
  let minute := (shown.minute : Int) - offset
  if minute < 0 then
    { shown with date := shown.date.previous, minute := (minute + minutesPerDay).toNat }
  else if (minutesPerDay : Int) ≤ minute then
    { shown with date := shown.date.next, minute := (minute - minutesPerDay).toNat }
  else { shown with minute := minute.toNat }

def read? (text : List Char) : Option Instant := do
  let (year, text) ← readYear? text
  let (month, text) ← readField? 2 (← readMark? '-' text)
  let (day, text) ← readField? 2 (← readMark? '-' text)
  let (hour, text) ← readField? 2 (← readSeparator? text)
  let (minute, text) ← readField? 2 (← readMark? ':' text)
  let (second, text) ← readField? 2 (← readMark? ':' text)
  let (nano, text) ← readNano? text
  let (offset, text) ← readOffset? (dropBlank text)
  let shown : Instant := ⟨⟨year, month, day⟩, hour * 60 + minute, second, nano⟩
  let instant := behind offset shown
  if shown.date.isValid && hour < 24 && minute < 60 && second ≤ 60 && instant.date.isValid &&
      (dropBlank text).isEmpty then
    some instant
  else none

end Instant

end Reckoner
