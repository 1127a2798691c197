/-!
Pools of objects for reuse. Idle objects wait in a stack: the one kept last is handed out first, and
a new one is built only when none is idle. A returned object is reset, and is kept only while there
is room.
-/

namespace Reckoner

structure Pool.Options where
  capacity : Nat
  preallocate : Nat
  deriving DecidableEq

def Pool.Options.standard : Pool.Options := ⟨100, 0⟩

def Pool.Options.room (options : Pool.Options) : Nat :=
  min options.capacity (max options.preallocate 16)

/-- The most objects that there can be room for: an object takes three words of eight bytes, and the
bytes of the room are counted by a signed word. -/
def Pool.roomLimit : Nat := 384307168202282325

/-- A pool. Its `build` makes an object from the number of objects made before. -/
structure Pool (α : Type) where
  capacity : Nat
  build : Nat → α
  reset : α → α
  idle : List α
  created : Nat

namespace Pool

variable {α : Type}

def new (options : Options) (build : Nat → α) (reset : α → α) : Pool α :=
  let count := min options.preallocate options.capacity
  { capacity := options.capacity, build, reset
    idle := ((List.range count).map build).reverse, created := count }

def new? (options : Options) (build : Nat → α) (reset : α → α) : Option (Pool α) :=
  if options.room ≤ roomLimit then some (new options build reset) else none

def acquire (pool : Pool α) : Pool α × α :=
  match pool.idle with
  | object :: idle => ({ pool with idle }, object)
  | [] => ({ pool with created := pool.created + 1 }, pool.build pool.created)

def release (pool : Pool α) (object : α) : Pool α :=
  if pool.idle.length < pool.capacity then
    { pool with idle := pool.reset object :: pool.idle }
  else pool

def available (pool : Pool α) : Nat :=
  pool.idle.length

def outline (pool : Pool α) : String :=
  "ObjectPool \x7b available: " ++ toString pool.available ++ ", created: " ++
    toString pool.created ++ ", max_size: " ++ toString pool.capacity ++ " \x7d"

end Pool

end Reckoner
