import Reckoner.Batch

/-!
Chunks: what one caller adds between two events that empty the queue is delivered in whole batches
as soon as they are full, and what is left over at the event. A queue is emptied by a flush, which
is also what the end of the batch comes to, or when the armed timer runs out.
-/

namespace Reckoner.Batch

variable {α : Type}

inductive Use (α : Type) where
  | add (item : α)
  | flush
  | elapse

def Use.item? : Use α → Option α
  | .add item => some item
  | _ => none

def Options.width (options : Options) : Nat :=
  max 1 options.size

inductive Adds (batch : Batch α) (item : α) : Batch α × List (List α) → Prop
  | fills (full : batch.options.size ≤ batch.queue.length + 1) :
      Adds batch item ({ batch with queue := [], timer := none }, [batch.queue ++ [item]])
  | joins (room : batch.queue.length + 1 < batch.options.size)
      (armed : batch.timer.isSome = true) :
      Adds batch item ({ batch with queue := batch.queue ++ [item] }, [])
  | opens (room : batch.queue.length + 1 < batch.options.size) (unarmed : batch.timer = none) :
      Adds batch item
        ({ batch with
            queue := batch.queue ++ [item]
            timer := some (batch.generation + 1)
            generation := batch.generation + 1 }, [])

theorem adds_add (batch : Batch α) (item : α) : Adds batch item (batch.add item) := by
  by_cases full : batch.options.size ≤ batch.queue.length + 1
  · have filled : batch.add item =
        ({ batch with queue := [], timer := none }, [batch.queue ++ [item]]) := by
      simp [add, push, isFull, flush, drain, deliver, full]
    exact filled ▸ .fills full
  · have room := Nat.lt_of_not_le full
    cases timer : batch.timer with
    | some generation =>
        have joined : batch.add item = ({ batch with queue := batch.queue ++ [item] }, []) := by
          simp [add, push, isFull, full, timer]
        exact joined ▸ .joins room (by simp [timer])
    | none =>
        have opened : batch.add item =
            ({ batch with
                queue := batch.queue ++ [item]
                timer := some (batch.generation + 1)
                generation := batch.generation + 1 }, []) := by
          simp [add, push, isFull, full, timer]
        exact opened ▸ .opens room timer

theorem elapse_eq_flush {batch : Batch α} (pending : batch.timer = none → batch.queue = []) :
    batch.elapse = batch.flush := by
  cases timer : batch.timer with
  | some generation => simp [elapse, expire, flush, timer]
  | none =>
      obtain ⟨options, queue, armed, generation⟩ := batch
      cases timer
      cases pending rfl
      rfl

structure Cut (width : Nat) (items : List α) (whole : List (List α)) (rest : List α) : Prop where
  order : whole.flatten ++ rest = items
  exact : ∀ batch ∈ whole, batch.length = width
  short : rest.length < width

namespace Cut

variable {width : Nat} {items rest : List α} {whole : List (List α)}

theorem join (cut : Cut width items whole rest) (item : α) (room : rest.length + 1 < width) :
    Cut width (items ++ [item]) whole (rest ++ [item]) := by
  constructor
  case order => rw [← cut.order, List.append_assoc]
  case exact => exact cut.exact
  case short => simpa using room

theorem fill (cut : Cut width items whole rest) (item : α) (full : width ≤ rest.length + 1) :
    Cut width (items ++ [item]) (whole ++ [rest ++ [item]]) [] := by
  have short := cut.short
  constructor
  case order =>
    rw [← cut.order]
    simp
  case exact =>
    intro batch member
    rcases List.mem_append.mp member with old | new
    · exact cut.exact batch old
    · rw [List.mem_singleton.mp new, List.length_append, List.length_singleton]
      omega
  case short => exact Nat.zero_lt_of_lt short

end Cut

/-- What is added between two events that empty the queue, and the batches delivered meanwhile and
at the later event. -/
structure Stretch (α : Type) where
  added : List α
  batches : List (List α)

/-- The items of a stretch that is over have come in whole batches, and the rest in one more. -/
def Stretch.Chunked (width : Nat) (stretch : Stretch α) : Prop :=
  ∃ whole rest, Cut width stretch.added whole rest ∧ stretch.batches = whole ++ deliver rest

structure Log (α : Type) where
  batch : Batch α
  past : List (Stretch α)
  current : Stretch α

namespace Log

def new (options : Options) : Log α :=
  ⟨.new options, [], ⟨[], []⟩⟩

def delivered (log : Log α) : List (List α) :=
  log.past.flatMap Stretch.batches ++ log.current.batches

def add (log : Log α) (item : α) : Log α :=
  { log with
    batch := (log.batch.add item).1
    current := ⟨log.current.added ++ [item], log.current.batches ++ (log.batch.add item).2⟩ }

def close (log : Log α) (emptied : Batch α × List (List α)) : Log α :=
  { batch := emptied.1
    past := log.past ++ [⟨log.current.added, log.current.batches ++ emptied.2⟩]
    current := ⟨[], []⟩ }

def step (log : Log α) : Use α → Log α
  | .add item => log.add item
  | .flush => log.close log.batch.flush
  | .elapse => log.close log.batch.elapse

def after (log : Log α) (uses : List (Use α)) : Log α :=
  uses.foldl step log

theorem added_after (uses : List (Use α)) (log : Log α) :
    (log.after uses).past.flatMap Stretch.added ++ (log.after uses).current.added =
      log.past.flatMap Stretch.added ++ log.current.added ++ uses.filterMap Use.item? := by
  induction uses generalizing log with
  | nil => simp [after]
  | cons use rest ih =>
      refine (ih (log.step use)).trans ?_
      cases use <;> simp [step, add, close, Use.item?, List.filterMap_cons]

structure Steady (options : Options) (log : Log α) : Prop where
  same : log.batch.options = options
  past : ∀ stretch ∈ log.past, stretch.Chunked options.width
  current : Cut options.width log.current.added log.current.batches log.batch.queue
  pending : log.batch.timer.isSome = true ↔ log.batch.queue ≠ []
  armings : log.batch.generation =
    if options.size ≤ 1 then 0
    else log.delivered.length + if log.batch.queue = [] then 0 else 1

namespace Steady

variable {options : Options} {log : Log α}

theorem unarmed (steady : log.Steady options) (timer : log.batch.timer = none) :
    log.batch.queue = [] := by
  refine Classical.byContradiction fun queued => ?_
  have armed := steady.pending.mpr queued
  simp [timer] at armed

theorem add (steady : log.Steady options) (item : α) : (log.add item).Steady options := by
  have size : log.batch.options.size = options.size := congrArg Options.size steady.same
  have armings := steady.armings
  have adds := adds_add log.batch item
  unfold Log.add
  generalize log.batch.add item = added at adds
  cases adds with
  | fills full =>
      rw [size] at full
      have short := steady.current.short
      constructor
      case same => exact steady.same
      case past => exact steady.past
      case current => exact steady.current.fill item (by unfold Options.width; omega)
      case pending => simp
      case armings =>
        change log.batch.generation = _
        rw [armings]
        by_cases single : options.size ≤ 1
        · rw [if_pos single, if_pos single]
        · have queued : log.batch.queue ≠ [] := by
            intro empty
            rw [empty] at full
            exact single full
          rw [if_neg single, if_neg single, if_neg queued, if_pos rfl]
          simp [delivered, Nat.add_assoc]
  | joins room armed =>
      rw [size] at room
      have queued := steady.pending.mp armed
      constructor
      case same => exact steady.same
      case past => exact steady.past
      case current =>
        rw [List.append_nil]
        exact steady.current.join item (by unfold Options.width; omega)
      case pending => simp [armed]
      case armings =>
        change log.batch.generation = _
        have several : ¬options.size ≤ 1 := by omega
        rw [armings, if_neg several, if_neg several, if_neg queued, if_neg (by simp)]
        simp [delivered]
  | opens room unarmed =>
      rw [size] at room
      have empty := steady.unarmed unarmed
      constructor
      case same => exact steady.same
      case past => exact steady.past
      case current =>
        rw [List.append_nil]
        exact steady.current.join item (by unfold Options.width; omega)
      case pending => simp
      case armings =>
        change log.batch.generation + 1 = _
        have several : ¬options.size ≤ 1 := by omega
        rw [armings, if_neg several, if_neg several, if_pos empty, if_neg (by simp)]
        simp [delivered]

theorem chunked (steady : log.Steady options) :
    (Stretch.mk log.current.added (log.current.batches ++ log.batch.flush.2)).Chunked
      options.width :=
  ⟨log.current.batches, log.batch.queue, steady.current, rfl⟩

theorem flush (steady : log.Steady options) : (log.close log.batch.flush).Steady options := by
  have short := steady.current.short
  constructor
  case same => exact steady.same
  case past =>
    intro stretch member
    rcases List.mem_append.mp member with old | new
    · exact steady.past stretch old
    · exact List.mem_singleton.mp new ▸ steady.chunked
  case current =>
    exact ⟨rfl, by simp [close], Nat.zero_lt_of_lt short⟩
  case pending => simp [close, Batch.flush, drain]
  case armings =>
    change log.batch.generation = _
    rw [steady.armings]
    by_cases empty : log.batch.queue = []
    · simp [delivered, close, Batch.flush, drain, deliver, empty]
    · simp [delivered, close, Batch.flush, drain, deliver, empty, Nat.add_assoc]

theorem step (steady : log.Steady options) (use : Use α) : (log.step use).Steady options := by
  cases use with
  | add item => exact steady.add item
  | flush => exact steady.flush
  | elapse =>
      have same : log.step .elapse = log.close log.batch.flush :=
        congrArg log.close (elapse_eq_flush steady.unarmed)
      exact same ▸ steady.flush

end Steady

theorem new_steady (options : Options) : (new options : Log α).Steady options := by
  constructor
  case same => rfl
  case past => simp [new]
  case current =>
    exact ⟨rfl, by simp [new], Nat.lt_of_lt_of_le Nat.zero_lt_one (Nat.le_max_left _ _)⟩
  case pending => simp [new, Batch.new]
  case armings => simp [new, Batch.new, delivered]

theorem steady_after {options : Options} (uses : List (Use α)) {log : Log α}
    (steady : log.Steady options) : (log.after uses).Steady options := by
  induction uses generalizing log with
  | nil => exact steady
  | cons use rest ih => exact ih (steady.step use)

/-- How the uses of a batch have been answered: stretch by stretch the items are delivered in
chunks, and between any two uses the queue is short and a timer is armed for it just when it is not
empty. The end of the batch delivers like a flush. -/
structure Answered (options : Options) (uses : List (Use α)) (log : Log α) : Prop where
  items : log.past.flatMap Stretch.added ++ log.current.added = uses.filterMap Use.item?
  past : ∀ stretch ∈ log.past, stretch.Chunked options.width
  current : Cut options.width log.current.added log.current.batches log.batch.queue
  ended : (Stretch.mk log.current.added (log.current.batches ++ log.batch.flush.2)).Chunked
    options.width
  short : log.batch.queue.length < max 1 options.size
  pending : log.batch.timer.isSome = true ↔ log.batch.queue ≠ []
  single : options.size ≤ 1 → log.batch.timer = none ∧ log.batch.generation = 0
  armings : 1 < options.size → log.batch.generation =
    log.delivered.length + if log.batch.queue = [] then 0 else 1

theorem answered_after (options : Options) (uses : List (Use α)) :
    Answered options uses ((new options).after uses) := by
  have steady := steady_after uses (new_steady options)
  constructor
  case items => exact added_after uses (new options)
  case past => exact steady.past
  case current => exact steady.current
  case ended => exact steady.chunked
  case short => exact steady.current.short
  case pending => exact steady.pending
  case single =>
    intro single
    have short := steady.current.short
    have empty : ((new options).after uses).batch.queue = [] :=
      List.eq_nil_of_length_eq_zero (by unfold Options.width at short; omega)
    constructor
    · refine Option.not_isSome_iff_eq_none.mp fun armed => ?_
      exact steady.pending.mp armed empty
    · rw [steady.armings, if_pos single]
  case armings =>
    intro several
    rw [steady.armings, if_neg (Nat.not_le_of_lt several)]

example : ((new ⟨2, 0⟩).after [.add 'a', .add 'b', .add 'c', .elapse]).past =
    [⟨['a', 'b', 'c'], [['a', 'b'], ['c']]⟩] := rfl

end Log

end Reckoner.Batch
