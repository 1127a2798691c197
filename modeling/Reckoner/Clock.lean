import Reckoner.Span

/-!
A clock that stands still until it is moved. It counts milliseconds in one unsigned word and wraps
round when it is moved beyond it.
-/

namespace Reckoner

structure Clock where
  millis : UInt64
  deriving DecidableEq

namespace Clock

def zero : Clock := ⟨0⟩

def advance (clock : Clock) (millis : UInt64) : Clock :=
  ⟨clock.millis + millis⟩

def setTime (_ : Clock) (millis : UInt64) : Clock :=
  ⟨millis⟩

def now (clock : Clock) : Nat :=
  Span.ofMillis clock.millis.toNat

end Clock

end Reckoner
