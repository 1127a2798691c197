import Reckoner.Decimal.Reading
import Reckoner.Text.Blank

/-!
The memory that a process uses, and the probes that tell it. Hosts differ in what they tell: some
give nothing, and some a report with a line for each figure, in which sizes are in units of 1024
bytes.
-/

namespace Reckoner.Memory

open Decimal Text

structure Usage where
  resident : Nat
  mapped : Nat
  deriving DecidableEq

def Usage.isPositive (usage : Usage) : Bool :=
  0 < usage.resident && 0 < usage.mapped

def dropUnit (text : List Char) : List Char :=
  match text.reverse with
  | 'B' :: 'k' :: rest => rest.reverse
  | _ => text

def sizeOfLine? (label line : List Char) : Option Nat :=
  let digits := trimList (dropUnit (trimList (line.drop label.length)))
  if digits.isEmpty || !digits.all isDecimalDigit then none else some (digitsValue 0 digits * 1024)

def size? (label : List Char) (lines : List (List Char)) : Option Nat :=
  (lines.find? label.isPrefixOf).bind (sizeOfLine? label)

def Usage.ofReport? (report : String) : Option Usage := do
  let lines := report.toList.splitOn '\n'
  return { resident := ← size? "VmRSS:".toList lines, mapped := ← size? "VmSize:".toList lines }

inductive Probe where
  | unsupported
  | fixed (usage : Usage)
  | report (text : String)

def Probe.usage? : Probe → Option Usage
  | .unsupported => none
  | .fixed usage => some usage
  | .report text => Usage.ofReport? text

end Reckoner.Memory
