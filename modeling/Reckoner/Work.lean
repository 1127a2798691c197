/-!
Work that is asked for its result, which it may not have yet: it is then asked again.
-/

namespace Reckoner

inductive Work (α : Type) where
  | ready (value : α)
  | pending (next : Work α)

namespace Work

variable {α : Type}

/-- Work that has its result after it has been asked `count` times in vain. -/
def delayed (value : α) (count : Nat) : Work α :=
  Nat.repeat .pending count (.ready value)

def awaitFrom (asked : Nat) : Work α → α × Nat
  | .ready value => (value, asked + 1)
  | .pending next => next.awaitFrom (asked + 1)

def await (work : Work α) : α × Nat :=
  work.awaitFrom 0

end Work

end Reckoner
