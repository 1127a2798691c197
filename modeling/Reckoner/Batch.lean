import Reckoner.Span

/-!
Batches: items wait in a queue until there are enough of them or the first has waited long enough,
and are then delivered together. The operations are made of steps that each happen at once: an item
is pushed, which may arm a timer; the queue is drained, which disarms it; a timer runs out, which
drains the queue if it is still the armed one. Timers are told apart by their generation. The thread
of a timer is started after the timer has been armed, which fails if the clock cannot tell when it
is to run out.
-/

namespace Reckoner

structure Batch.Options where
  size : Nat
  delay : Nat
  deriving DecidableEq

def Batch.Options.standard : Batch.Options := ⟨10, Span.ofMillis 16⟩

/-- When a timer that is started now runs out, if the clock can tell: it counts its seconds in a
signed word. -/
def Batch.Options.deadline? (options : Batch.Options) (now : Nat) : Option Nat :=
  let deadline := now + options.delay
  if Word64.fitsSigned (deadline / Span.perSecond : Nat) then some deadline else none

structure Batch (α : Type) where
  options : Batch.Options
  queue : List α
  timer : Option Nat
  generation : Nat

namespace Batch

variable {α : Type}

def new (options : Options) : Batch α :=
  ⟨options, [], none, 0⟩

def isFull (batch : Batch α) : Bool :=
  batch.options.size ≤ batch.queue.length

def push (batch : Batch α) (item : α) : Batch α :=
  let pushed := { batch with queue := batch.queue ++ [item] }
  if pushed.isFull || pushed.timer.isSome then pushed
  else
    { pushed with
      timer := some (pushed.generation + 1)
      generation := pushed.generation + 1 }

def drain (batch : Batch α) : Batch α × List α :=
  ({ batch with queue := [], timer := none }, batch.queue)

def expire (batch : Batch α) (generation : Nat) : Batch α × List α :=
  if batch.timer = some generation then batch.drain else (batch, [])

def deliver (items : List α) : List (List α) :=
  if items.isEmpty then [] else [items]

def flush (batch : Batch α) : Batch α × List (List α) :=
  let (drained, items) := batch.drain
  (drained, deliver items)

def add (batch : Batch α) (item : α) : Batch α × List (List α) :=
  let pushed := batch.push item
  if pushed.isFull then pushed.flush else (pushed, [])

/-- An add at a moment of the clock. It fails if it has armed a timer that cannot be started: the
item is in the queue then, and the timer is armed all the same. -/
def addAt (batch : Batch α) (now : Nat) (item : α) : Batch α × Option (List (List α)) :=
  let (added, delivered) := batch.add item
  let arms := batch.timer.isNone && added.timer.isSome
  (added, if arms && (batch.options.deadline? now).isNone then none else some delivered)

def elapse (batch : Batch α) : Batch α × List (List α) :=
  match batch.timer with
  | some generation =>
      let (drained, items) := batch.expire generation
      (drained, deliver items)
  | none => (batch, [])

def outline (batch : Batch α) : String :=
  "BatchProcessor \x7b queued: " ++ toString batch.queue.length ++ ", pending_timer: " ++
    (if batch.timer.isSome then "true" else "false") ++
    ", options: BatchOptions \x7b batch_size: " ++ toString batch.options.size ++
    ", delay: " ++ Span.text batch.options.delay ++ " \x7d \x7d"

end Batch

end Reckoner
