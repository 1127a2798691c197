import Reckoner.Batch

/-!
Threads that share a queue. What a thread does while it holds the lock happens at once; before and
after it, steps of other threads may come. A caller adds items and flushes. An add that fills the
queue drains it in a step of its own, and one that arms a timer starts the timer's thread in a step
of its own, or fails to. Batches are delivered without the lock. The record of what was pushed,
taken and delivered, and by which thread, and of the timers that could not be started is kept beside
the queue.
-/

namespace Reckoner.Batch

variable {α : Type}

/-- What a thread is about to do. A thread that holds items knows the timer that it ran for, if it
is a timer's thread. -/
inductive Stage (α : Type) where
  | idle
  | filled
  | starting (generation : Nat)
  | waiting (generation : Nat)
  | holding (generation : Option Nat) (items : List α)
  | finished

structure Session (α : Type) where
  batch : Batch α
  threads : List (Stage α)
  closed : Bool
  pushed : List α
  taken : List (Nat × List α)
  delivered : List (Nat × List α)
  failed : List Nat

/-- A step of the thread at an index. A timer's thread is started at a moment of the clock, and
wakes when its delay is over, or before. -/
inductive Action (α : Type) where
  | push (thread : Nat) (item : α)
  | drain (thread : Nat)
  | close (thread : Nat)
  | start (thread now : Nat)
  | wake (thread : Nat) (due : Bool)
  | deliver (thread : Nat)

def stageAfter (batch : Batch α) (item : α) : Stage α :=
  let pushed := batch.push item
  if pushed.isFull then .filled
  else if batch.timer.isSome then .idle
  else .starting pushed.generation

def batchesOf (thread : Nat) (record : List (Nat × List α)) : List (List α) :=
  (record.filter fun entry => entry.1 == thread).map (·.2)

theorem batchesOf_append (thread : Nat) (record more : List (Nat × List α)) :
    batchesOf thread (record ++ more) = batchesOf thread record ++ batchesOf thread more := by
  simp [batchesOf]

theorem batchesOf_map (thread other : Nat) (batches : List (List α)) :
    batchesOf other (batches.map fun batch => (thread, batch)) =
      if other = thread then batches else [] := by
  by_cases same : other = thread
  · simp [batchesOf, List.filter_map, Function.comp_def, same]
  · simp [batchesOf, List.filter_map, Function.comp_def, same, Ne.symm same]

namespace Session

def new (options : Options) (callers : Nat) : Session α :=
  ⟨.new options, List.replicate callers .idle, false, [], [], [], []⟩

def push (session : Session α) (thread : Nat) (item : α) : Session α :=
  { session with
    batch := session.batch.push item
    threads := session.threads.set thread (stageAfter session.batch item)
    pushed := session.pushed ++ [item] }

def take (session : Session α) (thread : Nat) (generation : Option Nat)
    (drained : Batch α × List α) : Session α :=
  { session with
    batch := drained.1
    threads := session.threads.set thread (.holding generation drained.2)
    taken := session.taken ++ [(thread, drained.2)] }

def drain (session : Session α) (thread : Nat) : Session α :=
  session.take thread none session.batch.drain

def spawn (session : Session α) (thread generation : Nat) : Session α :=
  { session with threads := session.threads.set thread .idle ++ [.waiting generation] }

def fail (session : Session α) (thread generation : Nat) : Session α :=
  { session with
    threads := session.threads.set thread .idle
    failed := session.failed ++ [generation] }

def retire (session : Session α) (thread : Nat) : Session α :=
  { session with threads := session.threads.set thread .finished }

def hand (session : Session α) (thread : Nat) (generation : Option Nat) (items : List α) :
    Session α :=
  { session with
    threads := session.threads.set thread (if generation.isSome then .finished else .idle)
    delivered := session.delivered ++ (deliver items).map fun batch => (thread, batch) }

/-- The state after a step, which is the state before it if the thread is not about to take such a
step. Once the queue is closed no caller begins anything. -/
def step (session : Session α) : Action α → Session α
  | .push thread item =>
      match session.threads[thread]? with
      | some .idle => if session.closed then session else session.push thread item
      | _ => session
  | .drain thread =>
      match session.threads[thread]? with
      | some .idle => if session.closed then session else session.drain thread
      | some .filled => session.drain thread
      | _ => session
  | .close thread =>
      match session.threads[thread]? with
      | some .idle =>
          if session.closed then session else { session.drain thread with closed := true }
      | _ => session
  | .start thread now =>
      match session.threads[thread]? with
      | some (.starting generation) =>
          if (session.batch.options.deadline? now).isSome then session.spawn thread generation
          else session.fail thread generation
      | _ => session
  | .wake thread due =>
      match session.threads[thread]? with
      | some (.waiting generation) =>
          if session.batch.timer ≠ some generation then session.retire thread
          else if due then session.take thread (some generation) (session.batch.expire generation)
          else session
      | _ => session
  | .deliver thread =>
      match session.threads[thread]? with
      | some (.holding generation items) => session.hand thread generation items
      | _ => session

def after (session : Session α) (actions : List (Action α)) : Session α :=
  actions.foldl step session

inductive Moves (session : Session α) : Session α → Prop
  | stay : Moves session session
  | push (thread : Nat) (item : α) (idle : session.threads[thread]? = some .idle)
      (opened : session.closed = false) : Moves session (session.push thread item)
  | flush (thread : Nat) (idle : session.threads[thread]? = some .idle)
      (opened : session.closed = false) : Moves session (session.drain thread)
  | drain (thread : Nat) (filled : session.threads[thread]? = some .filled) :
      Moves session (session.drain thread)
  | close (thread : Nat) (idle : session.threads[thread]? = some .idle)
      (opened : session.closed = false) :
      Moves session { session.drain thread with closed := true }
  | spawn (thread generation : Nat)
      (starting : session.threads[thread]? = some (.starting generation)) :
      Moves session (session.spawn thread generation)
  | fail (thread generation : Nat)
      (starting : session.threads[thread]? = some (.starting generation)) :
      Moves session (session.fail thread generation)
  | retire (thread generation : Nat)
      (waiting : session.threads[thread]? = some (.waiting generation))
      (stale : session.batch.timer ≠ some generation) : Moves session (session.retire thread)
  | expire (thread generation : Nat)
      (waiting : session.threads[thread]? = some (.waiting generation))
      (armed : session.batch.timer = some generation) :
      Moves session (session.take thread (some generation) session.batch.drain)
  | hand (thread : Nat) (generation : Option Nat) (items : List α)
      (holding : session.threads[thread]? = some (.holding generation items)) :
      Moves session (session.hand thread generation items)

theorem moves_step (session : Session α) (action : Action α) :
    session.Moves (session.step action) := by
  unfold step
  cases action with
  | push thread item =>
      dsimp only
      split
      · split
        · exact .stay
        · rename_i idle opened
          exact .push thread item idle (Bool.eq_false_iff.mpr opened)
      · exact .stay
  | drain thread =>
      dsimp only
      split
      · split
        · exact .stay
        · rename_i idle opened
          exact .flush thread idle (Bool.eq_false_iff.mpr opened)
      · exact .drain thread ‹_›
      · exact .stay
  | close thread =>
      dsimp only
      split
      · split
        · exact .stay
        · rename_i idle opened
          exact .close thread idle (Bool.eq_false_iff.mpr opened)
      · exact .stay
  | start thread now =>
      dsimp only
      split
      · split
        · exact .spawn thread _ ‹_›
        · exact .fail thread _ ‹_›
      · exact .stay
  | wake thread due =>
      dsimp only
      split
      · rename_i generation waiting
        by_cases armed : session.batch.timer = some generation
        · rw [if_neg (not_not_intro armed), Batch.expire, if_pos armed]
          split
          · exact .expire thread generation waiting armed
          · exact .stay
        · rw [if_pos armed]
          exact .retire thread generation waiting armed
      · exact .stay
  | deliver thread =>
      dsimp only
      split
      · exact .hand thread _ _ ‹_›
      · exact .stay

theorem after_induction (property : Session α → Prop)
    (kept : ∀ session next, property session → session.Moves next → property next)
    (actions : List (Action α)) (session : Session α) (start : property session) :
    property (session.after actions) := by
  induction actions generalizing session with
  | nil => exact start
  | cons action rest ih => exact ih _ (kept session _ start (session.moves_step action))

theorem threads_set {session : Session α} {thread : Nat} {stage : Stage α}
    (found : session.threads[thread]? = some stage) (changed : Stage α) (other : Nat) :
    (session.threads.set thread changed)[other]? =
      if other = thread then some changed else session.threads[other]? := by
  have within := (List.getElem?_eq_some_iff.mp found).1
  rw [List.getElem?_set]
  by_cases same : thread = other
  · simp [same, same ▸ within]
  · simp [same, Ne.symm same]

theorem threads_set_self {session : Session α} {thread : Nat} {stage : Stage α}
    (found : session.threads[thread]? = some stage) (changed : Stage α) :
    (session.threads.set thread changed)[thread]? = some changed := by
  rw [threads_set found, if_pos rfl]

theorem threads_spawn {session : Session α} {thread : Nat} {stage : Stage α}
    (found : session.threads[thread]? = some stage) (generation other : Nat) :
    (session.spawn thread generation).threads[other]? =
      if other = thread then some .idle
      else if other = session.threads.length then some (.waiting generation)
      else session.threads[other]? := by
  have within := (List.getElem?_eq_some_iff.mp found).1
  rw [spawn, List.getElem?_append, threads_set found, List.length_set]
  by_cases same : other = thread
  · simp [same, within]
  · by_cases last : other = session.threads.length
    · simp [last, Nat.ne_of_gt within]
    · simp only [if_neg same, if_neg last]
      split
      · rfl
      · rw [List.getElem?_eq_none (by simp; omega), List.getElem?_eq_none (by omega)]

end Session

end Reckoner.Batch
