import Reckoner.Register
import Reckoner.Span
import Reckoner.Text.Paint
import Reckoner.Text.Quoted

/-!
Samples: the latest durations recorded under each of some names, and their summaries. Of a name no
more than `window` samples are kept. A summary needs the sum of the samples, which may be too long
for a span of time; there is no answer then.
-/

namespace Reckoner

structure Summary where
  count : Nat
  average : Nat
  least : Nat
  greatest : Nat
  /-- A sample that at least ninety-five hundredths of the samples do not exceed. -/
  nearGreatest : Nat
  deriving DecidableEq

inductive Summary.Answer where
  | none
  | some (summary : Summary)
  | overflow

namespace Summary

def nearGreatestPlace (count : Nat) : Nat :=
  min (count * 95 / 100) (count - 1)

def ofSamples (samples : List Nat) : Answer :=
  match samples.mergeSort with
  | [] => .none
  | least :: rest =>
      let sorted := least :: rest
      let count := sorted.length
      let total := sorted.foldl (· + ·) 0
      if Span.limit ≤ total then .overflow
      else .some
        { count, average := total / count, least, greatest := sorted.getLastD least
          nearGreatest := sorted.getD (nearGreatestPlace count) least }

def display (coloured : Bool) (summary : Summary) : String :=
  let label := Text.paint coloured .cyan
  label "count" ++ " " ++ toString summary.count ++ "  " ++
    label "avg" ++ " " ++ Span.text summary.average ++ "  " ++
    label "min" ++ " " ++ Span.text summary.least ++ "  " ++
    label "max" ++ " " ++ Span.text summary.greatest ++ "  " ++
    label "p95" ++ " " ++ Span.text summary.nearGreatest

end Summary

structure Samples where
  register : Register (List Nat)

namespace Samples

def window : Nat := 100

def empty : Samples := ⟨.empty⟩

def push (samples : List Nat) (sample : Nat) : List Nat :=
  (if samples.length = window then samples.drop 1 else samples) ++ [sample]

def ofName (samples : Samples) (name : String) : List Nat :=
  (samples.register.get? name).getD []

def record (samples : Samples) (name : String) (sample : Nat) : Samples :=
  ⟨samples.register.insert name (push (samples.ofName name) sample)⟩

/-- Does work that takes some time, and records the time whatever the work gives. -/
def measure {α : Type} (samples : Samples) (name : String) (elapsed : Nat) (work : Unit → α) :
    Samples × α :=
  (samples.record name elapsed, work ())

def summary (samples : Samples) (name : String) : Summary.Answer :=
  Summary.ofSamples (samples.ofName name)

def names (samples : Samples) : List String :=
  (samples.register.entries.filter fun entry => !entry.2.isEmpty).map (·.1)

def clearName (samples : Samples) (name : String) : Samples :=
  ⟨samples.register.erase name⟩

def display? (coloured : Bool) (samples : Samples) : Option String :=
  (samples.names.mapM fun name =>
    match samples.summary name with
    | .none => some ""
    | .some summary =>
        some (Text.paint coloured .yellow name ++ ": " ++ summary.display coloured ++ "\n")
    | .overflow => none).map String.join

def outline (samples : Samples) : String :=
  "MetricsRecorder \x7b metrics: [" ++ ", ".intercalate (samples.names.map Text.quoted) ++ "] \x7d"

end Samples

end Reckoner
