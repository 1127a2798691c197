import Reckoner.Cache

/-!
Remembered functions. A call looks its key up, runs the function only if nothing is found, and
stores what the function gives unless it fails. Between the look-up and the store other calls may
come, so that the two are steps of their own.
-/

namespace Reckoner

/-- A function that may fail, with a cache of its results under the keys of its arguments. -/
structure Memo (α ε β : Type) where
  key : α → String
  compute : α → Except ε β
  cache : Cache β

structure Memo.Answer (ε β : Type) where
  result : Except ε β
  computed : Bool

namespace Memo

variable {α ε β : Type}

def lookup (memo : Memo α ε β) (now : Nat) (argument : α) : Memo α ε β × Option β :=
  let (cache, found) := memo.cache.get now (memo.key argument)
  ({ memo with cache }, found)

def store (memo : Memo α ε β) (now : Nat) (argument : α) (result : Except ε β) : Memo α ε β :=
  match result with
  | .ok value => { memo with cache := memo.cache.set now (memo.key argument) value }
  | .error _ => memo

/-- A call in which a run of the function, if one is needed, gives the result `run`. -/
def callWith (memo : Memo α ε β) (now : Nat) (argument : α) (run : Unit → Except ε β) :
    Memo α ε β × Answer ε β :=
  match memo.lookup now argument with
  | (looked, some value) => (looked, ⟨.ok value, false⟩)
  | (looked, none) =>
      let result := run ()
      (looked.store now argument result, ⟨result, true⟩)

def call (memo : Memo α ε β) (now : Nat) (argument : α) : Memo α ε β × Answer ε β :=
  memo.callWith now argument fun _ => memo.compute argument

def callAll (memo : Memo α ε β) (now : Nat) : List α → Memo α ε β × List (Answer ε β)
  | [] => (memo, [])
  | argument :: rest =>
      let (memo, answer) := memo.call now argument
      let (memo, answers) := memo.callAll now rest
      (memo, answer :: answers)

def clear (memo : Memo α ε β) : Memo α ε β :=
  { memo with cache := memo.cache.clear }

def stats (memo : Memo α ε β) : Cache.Stats :=
  memo.cache.stats

def outline (memo : Memo α ε β) : String :=
  "Memoized \x7b stats: " ++ memo.stats.outline ++ " \x7d"

end Memo

end Reckoner
