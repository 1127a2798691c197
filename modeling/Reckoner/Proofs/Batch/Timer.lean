import Reckoner.Proofs.Batch.Threads

/-!
Timers: the armed timer is the youngest, and exactly one thread runs for it or is about to start,
unless the clock could not tell when it is to run out: then none ever does. A timer's thread that is
not the armed one is out of the game for good, even if it wakes after its timer has been cancelled
and others have been armed. Nothing waits in the queue unless a timer is armed or a caller is about
to drain it.
-/

namespace Reckoner.Batch

variable {α : Type}

def Stage.timer? : Stage α → Option Nat
  | .starting generation => some generation
  | .waiting generation => some generation
  | .holding generation _ => generation
  | _ => none

def Stage.isTimer : Stage α → Bool
  | .waiting _ => true
  | .holding generation _ => generation.isSome
  | .finished => true
  | _ => false

inductive Pushed (batch : Batch α) (item : α) : Prop
  | filled (stage : stageAfter batch item = .filled) (timer : (batch.push item).timer = batch.timer)
      (generation : (batch.push item).generation = batch.generation)
  | joined (stage : stageAfter batch item = .idle) (timer : (batch.push item).timer = batch.timer)
      (generation : (batch.push item).generation = batch.generation)
      (armed : ∃ generation, batch.timer = some generation)
  | armed (stage : stageAfter batch item = .starting (batch.generation + 1))
      (timer : (batch.push item).timer = some (batch.generation + 1))
      (generation : (batch.push item).generation = batch.generation + 1)

theorem push_cases (batch : Batch α) (item : α) : Pushed batch item := by
  by_cases full : batch.options.size ≤ batch.queue.length + 1
  · apply Pushed.filled <;> simp [stageAfter, push, isFull, full]
  · cases timer : batch.timer with
    | some generation =>
        refine Pushed.joined ?_ ?_ ?_ ⟨generation, timer⟩ <;>
          simp [stageAfter, push, isFull, full, timer]
    | none => apply Pushed.armed <;> simp [stageAfter, push, isFull, full, timer]

theorem addAt_eq_none_iff (batch : Batch α) (now : Nat) (item : α) :
    (batch.addAt now item).2 = none ↔
      (∃ generation, stageAfter batch item = .starting generation) ∧
        batch.options.deadline? now = none := by
  by_cases full : batch.options.size ≤ batch.queue.length + 1
  · simp [addAt, add, flush, drain, stageAfter, push, isFull, full]
  · cases timer : batch.timer <;> simp [addAt, add, stageAfter, push, isFull, full, timer]

theorem options_push (batch : Batch α) (item : α) : (batch.push item).options = batch.options := by
  unfold push
  dsimp only
  split <;> rfl

namespace Session

def RunsFor (session : Session α) (thread generation : Nat) : Prop :=
  ∃ stage, session.threads[thread]? = some stage ∧ stage.timer? = some generation

structure Timed (session : Session α) : Prop where
  single : ∀ thread other generation, session.RunsFor thread generation →
    session.RunsFor other generation → thread = other
  bounded : ∀ thread generation, session.RunsFor thread generation →
    generation ≤ session.batch.generation
  armed : ∀ generation, session.batch.timer = some generation →
    generation = session.batch.generation ∧ (generation ∈ session.failed ∨ ∃ thread : Nat,
      session.threads[thread]? = some (.starting generation) ∨
        session.threads[thread]? = some (.waiting generation))
  lost : ∀ generation ∈ session.failed, generation ≤ session.batch.generation ∧
    ∀ thread, ¬session.RunsFor thread generation
  pending : session.batch.queue ≠ [] → (∃ generation, session.batch.timer = some generation) ∨
    ∃ thread : Nat, session.threads[thread]? = some .filled

theorem runsFor_of_threads {session next : Session α} {thread other generation : Nat}
    {stage : Stage α} (found : next.threads[other]? =
      if other = thread then some stage else session.threads[other]?) :
    next.RunsFor other generation ↔
      if other = thread then stage.timer? = some generation
      else session.RunsFor other generation := by
  unfold RunsFor
  rw [found]
  by_cases same : other = thread <;> simp [same]

theorem runsFor_of_change {session next : Session α} {thread other generation : Nat}
    {stage changed : Stage α} (found : session.threads[thread]? = some stage)
    (threads : next.threads = session.threads.set thread changed)
    (fewer : ∀ generation, changed.timer? = some generation → stage.timer? = some generation)
    (runs : next.RunsFor other generation) : session.RunsFor other generation := by
  rw [runsFor_of_threads (threads ▸ threads_set found changed other)] at runs
  split at runs
  · rename_i here
    exact ⟨stage, here ▸ found, fewer generation runs⟩
  · exact runs

theorem stage_set {session : Session α} {thread other : Nat} {stage kept changed : Stage α}
    (found : session.threads[thread]? = some stage) (there : session.threads[other]? = some kept)
    (different : stage ≠ kept) : (session.threads.set thread changed)[other]? = some kept := by
  rw [threads_set found]
  split
  · rename_i same
    rw [same, found] at there
    exact absurd (Option.some.inj there) different
  · exact there

theorem runsFor_of_spawn {session : Session α} {thread generation other timer : Nat}
    (starting : session.threads[thread]? = some (.starting generation))
    (runs : (session.spawn thread generation).RunsFor other timer) :
    other ≠ thread ∧
      session.RunsFor (if other = session.threads.length then thread else other) timer := by
  obtain ⟨stage, found, timer⟩ := runs
  rw [threads_spawn starting generation other] at found
  split at found
  · cases found
    contradiction
  · rename_i elsewhere
    refine ⟨elsewhere, ?_⟩
    split at found
    · rename_i last
      cases found
      rw [if_pos last]
      exact ⟨_, starting, timer⟩
    · rename_i earlier
      rw [if_neg earlier]
      exact ⟨stage, found, timer⟩

theorem stage_spawn {session : Session α} {thread generation other : Nat} {kept : Stage α}
    (starting : session.threads[thread]? = some (.starting generation))
    (there : session.threads[other]? = some kept) (elsewhere : other ≠ thread) :
    (session.spawn thread generation).threads[other]? = some kept := by
  have within := (List.getElem?_eq_some_iff.mp there).1
  rwa [threads_spawn starting generation other, if_neg elsewhere, if_neg (Nat.ne_of_lt within)]

namespace Timed

variable {session : Session α}

theorem change (timed : session.Timed) {next : Session α} {thread : Nat} {stage changed : Stage α}
    (found : session.threads[thread]? = some stage)
    (threads : next.threads = session.threads.set thread changed)
    (same : next.batch.generation = session.batch.generation)
    (failed : next.failed = session.failed)
    (fewer : ∀ generation, changed.timer? = some generation → stage.timer? = some generation)
    (timer : ∀ generation, next.batch.timer = some generation →
      session.batch.timer = some generation ∧ stage ≠ .starting generation ∧
        stage ≠ .waiting generation)
    (pending : next.batch.queue ≠ [] → (∃ generation, next.batch.timer = some generation) ∨
      ∃ thread : Nat, next.threads[thread]? = some .filled) : next.Timed := by
  have ran (other generation : Nat) (runs : next.RunsFor other generation) :
      session.RunsFor other generation :=
    runsFor_of_change found threads fewer runs
  constructor
  case single =>
    intro one other generation first second
    exact timed.single _ _ _ (ran _ _ first) (ran _ _ second)
  case bounded =>
    intro other generation runs
    rw [same]
    exact timed.bounded _ _ (ran _ _ runs)
  case armed =>
    intro generation armed
    obtain ⟨before, notStarting, notWaiting⟩ := timer generation armed
    obtain ⟨current, held⟩ := timed.armed generation before
    refine ⟨current.trans same.symm, ?_⟩
    rw [failed, threads]
    rcases held with lost | ⟨other, starting | waiting⟩
    · exact Or.inl lost
    · exact Or.inr ⟨other, Or.inl (stage_set found starting notStarting)⟩
    · exact Or.inr ⟨other, Or.inr (stage_set found waiting notWaiting)⟩
  case lost =>
    intro generation lost
    rw [failed] at lost
    obtain ⟨old, none⟩ := timed.lost generation lost
    rw [same]
    exact ⟨old, fun other runs => none other (ran _ _ runs)⟩
  case pending => exact pending

theorem leave (timed : session.Timed) {next : Session α} {thread : Nat} {stage changed : Stage α}
    (found : session.threads[thread]? = some stage)
    (threads : next.threads = session.threads.set thread changed)
    (batch : next.batch = session.batch) (failed : next.failed = session.failed)
    (silent : changed.timer? = none)
    (unfilled : stage ≠ .filled)
    (unarmed : ∀ generation, session.batch.timer = some generation →
      stage ≠ .starting generation ∧ stage ≠ .waiting generation) : next.Timed := by
  apply timed.change found threads
  case same => rw [batch]
  case failed => exact failed
  case fewer => simp [silent]
  case timer =>
    intro generation armed
    rw [batch] at armed
    exact ⟨armed, unarmed generation armed⟩
  case pending =>
    intro queued
    rw [batch] at queued ⊢
    rcases timed.pending queued with armed | ⟨other, filled⟩
    · exact Or.inl armed
    · refine Or.inr ⟨other, ?_⟩
      rw [threads]
      exact stage_set found filled unfilled

theorem take (timed : session.Timed) {thread : Nat} {stage : Stage α} {generation : Option Nat}
    (found : session.threads[thread]? = some stage)
    (own : ∀ timer, generation = some timer → stage.timer? = some timer) :
    (session.take thread generation session.batch.drain).Timed := by
  apply timed.change found rfl
  case same => rfl
  case failed => rfl
  case fewer => exact own
  case timer =>
    intro timer armed
    contradiction
  case pending =>
    intro queued
    exact absurd rfl queued

theorem arm (timed : session.Timed) {next : Session α} {thread : Nat} {stage : Stage α}
    (found : session.threads[thread]? = some stage)
    (threads : next.threads =
      session.threads.set thread (.starting (session.batch.generation + 1)))
    (timer : next.batch.timer = some (session.batch.generation + 1))
    (current : next.batch.generation = session.batch.generation + 1)
    (failed : next.failed = session.failed) : next.Timed := by
  have runs (other generation : Nat) : next.RunsFor other generation ↔
      if other = thread then some (session.batch.generation + 1) = some generation
      else session.RunsFor other generation :=
    runsFor_of_threads (threads ▸ threads_set found _ other)
  have fresh (other : Nat) : ¬session.RunsFor other (session.batch.generation + 1) := by
    intro running
    have old := timed.bounded _ _ running
    omega
  constructor
  case single =>
    intro one other generation first second
    rw [runs] at first second
    by_cases here : one = thread
    · by_cases there : other = thread
      · exact here.trans there.symm
      · rw [if_pos here] at first
        rw [if_neg there, ← Option.some.inj first] at second
        exact absurd second (fresh other)
    · by_cases there : other = thread
      · rw [if_pos there] at second
        rw [if_neg here, ← Option.some.inj second] at first
        exact absurd first (fresh one)
      · rw [if_neg here] at first
        rw [if_neg there] at second
        exact timed.single _ _ _ first second
  case bounded =>
    intro other generation running
    rw [runs] at running
    rw [current]
    split at running
    · exact Nat.le_of_eq (Option.some.inj running).symm
    · exact Nat.le_succ_of_le (timed.bounded _ _ running)
  case armed =>
    intro generation armed
    have younger := Option.some.inj (timer.symm.trans armed)
    refine ⟨younger.symm.trans current.symm, Or.inr ⟨thread, Or.inl ?_⟩⟩
    rw [threads, ← younger]
    exact threads_set_self found _
  case lost =>
    intro generation lost
    rw [failed] at lost
    obtain ⟨old, none⟩ := timed.lost generation lost
    refine ⟨by omega, fun other running => ?_⟩
    rw [runs] at running
    split at running
    · have young := Option.some.inj running
      omega
    · exact none other running
  case pending => exact fun _ => Or.inl ⟨_, timer⟩

theorem push (timed : session.Timed) {thread : Nat} (item : α)
    (idle : session.threads[thread]? = some .idle) : (session.push thread item).Timed := by
  cases push_cases session.batch item with
  | filled stage timer generation =>
      apply timed.change idle rfl
      case same => exact generation
      case failed => rfl
      case fewer => simp [stage, Stage.timer?]
      case timer =>
        intro armed found
        exact ⟨timer ▸ found, by simp, by simp⟩
      case pending =>
        intro _
        exact Or.inr ⟨thread, stage ▸ threads_set_self idle _⟩
  | joined stage timer generation armed =>
      apply timed.change idle rfl
      case same => exact generation
      case failed => rfl
      case fewer => simp [stage, Stage.timer?]
      case timer =>
        intro armed found
        exact ⟨timer ▸ found, by simp, by simp⟩
      case pending =>
        intro _
        exact Or.inl (timer.symm ▸ armed)
  | armed stage timer generation =>
      exact timed.arm idle (congrArg (session.threads.set thread) stage) timer generation rfl

theorem spawn (timed : session.Timed) {thread generation : Nat}
    (starting : session.threads[thread]? = some (.starting generation)) :
    (session.spawn thread generation).Timed := by
  constructor
  case single =>
    intro one other timer first second
    obtain ⟨one', first⟩ := runsFor_of_spawn starting first
    obtain ⟨other', second⟩ := runsFor_of_spawn starting second
    have same := timed.single _ _ _ first second
    split at same <;> split at same <;> omega
  case bounded =>
    intro other timer runs
    exact timed.bounded _ _ (runsFor_of_spawn starting runs).2
  case armed =>
    intro timer armed
    obtain ⟨current, held⟩ := timed.armed timer armed
    refine ⟨current, held.imp_right ?_⟩
    rintro ⟨other, found⟩
    by_cases here : other = thread
    · have same : generation = timer := by
        rw [here, starting] at found
        simpa using found
      have within := (List.getElem?_eq_some_iff.mp starting).1
      refine ⟨session.threads.length, Or.inr ?_⟩
      rw [threads_spawn starting, if_neg (Nat.ne_of_gt within), if_pos rfl, same]
    · exact ⟨other, found.imp (stage_spawn starting · here) (stage_spawn starting · here)⟩
  case lost =>
    intro timer lost
    obtain ⟨old, none⟩ := timed.lost timer lost
    exact ⟨old, fun other runs => none _ (runsFor_of_spawn starting runs).2⟩
  case pending =>
    intro queued
    rcases timed.pending queued with armed | ⟨other, filled⟩
    · exact Or.inl armed
    · refine Or.inr ⟨other, stage_spawn starting filled ?_⟩
      rintro rfl
      simp [starting] at filled

theorem fail (timed : session.Timed) {thread generation : Nat}
    (starting : session.threads[thread]? = some (.starting generation)) :
    (session.fail thread generation).Timed := by
  have ran (other timer : Nat) (runs : (session.fail thread generation).RunsFor other timer) :
      session.RunsFor other timer :=
    runsFor_of_change starting rfl (by simp [Stage.timer?]) runs
  constructor
  case single =>
    intro one other timer first second
    exact timed.single _ _ _ (ran _ _ first) (ran _ _ second)
  case bounded =>
    intro other timer runs
    exact timed.bounded _ _ (ran _ _ runs)
  case armed =>
    intro timer armed
    obtain ⟨current, held⟩ := timed.armed timer armed
    refine ⟨current, ?_⟩
    by_cases own : generation = timer
    · exact Or.inl (List.mem_append_right _ (by simp [own]))
    rcases held with lost | ⟨other, found⟩
    · exact Or.inl (List.mem_append_left _ lost)
    · exact Or.inr ⟨other, found.imp (stage_set starting · (by simp [own]))
        (stage_set starting · (by simp))⟩
  case lost =>
    intro timer lost
    rcases List.mem_append.mp lost with before | own
    · obtain ⟨old, none⟩ := timed.lost timer before
      exact ⟨old, fun other runs => none other (ran _ _ runs)⟩
    · rw [List.mem_singleton.mp own]
      refine ⟨timed.bounded thread generation ⟨_, starting, rfl⟩, ?_⟩
      intro other runs
      have same := timed.single _ _ _ (ran _ _ runs) ⟨_, starting, rfl⟩
      rw [same, runsFor_of_threads (threads_set starting .idle thread), if_pos rfl] at runs
      contradiction
  case pending =>
    intro queued
    rcases timed.pending queued with armed | ⟨other, filled⟩
    · exact Or.inl armed
    · exact Or.inr ⟨other, stage_set starting filled (by simp)⟩

theorem moves (timed : session.Timed) {next : Session α} (moves : session.Moves next) :
    next.Timed := by
  cases moves with
  | stay => exact timed
  | push thread item idle opened => exact timed.push item idle
  | flush thread idle opened => exact timed.take idle nofun
  | drain thread filled => exact timed.take filled nofun
  | close thread idle opened =>
      have drained : (session.drain thread).Timed := timed.take idle nofun
      exact { drained with }
  | spawn thread generation starting => exact timed.spawn starting
  | fail thread generation starting => exact timed.fail starting
  | retire thread generation waiting stale =>
      refine timed.leave waiting rfl rfl rfl rfl (by simp) ?_
      intro armed found
      refine ⟨by simp, ?_⟩
      rintro same
      cases same
      exact stale found
  | expire thread generation waiting armed => exact timed.take waiting fun timer own => own
  | hand thread generation items holding =>
      refine timed.leave holding rfl rfl rfl ?_ (by simp) (by simp)
      cases generation <;> rfl

end Timed

/-- Whether a thread is the thread of a timer that is no longer armed, or of one that has run
out. -/
def Retired (session : Session α) (thread : Nat) : Prop :=
  ∃ stage, session.threads[thread]? = some stage ∧ stage.isTimer = true ∧
    ∀ generation, stage = .waiting generation →
      session.batch.timer ≠ some generation ∧ generation ≤ session.batch.generation

namespace Retired

variable {session next : Session α} {thread other : Nat}

theorem elsewhere (retired : session.Retired other)
    (same : next.threads[other]? = session.threads[other]?)
    (timer : ∀ generation, next.batch.timer = some generation →
      session.batch.timer = some generation ∨ session.batch.generation < generation)
    (generation : session.batch.generation ≤ next.batch.generation) : next.Retired other := by
  obtain ⟨stage, found, isTimer, unarmed⟩ := retired
  refine ⟨stage, same.trans found, isTimer, ?_⟩
  intro own waiting
  obtain ⟨before, bounded⟩ := unarmed own waiting
  refine ⟨?_, Nat.le_trans bounded generation⟩
  intro armed
  rcases timer own armed with old | younger
  · exact before old
  · omega

theorem ne_of_stage (retired : session.Retired other) {stage : Stage α}
    (found : session.threads[thread]? = some stage) (caller : stage.isTimer = false) :
    other ≠ thread := by
  rintro rfl
  obtain ⟨own, found', isTimer, -⟩ := retired
  rw [found] at found'
  cases found'
  rw [caller] at isTimer
  contradiction

theorem take (retired : session.Retired other) {stage : Stage α}
    (found : session.threads[thread]? = some stage) (different : other ≠ thread)
    (generation : Option Nat) :
    (session.take thread generation session.batch.drain).Retired other ∧
      batchesOf other (session.take thread generation session.batch.drain).taken =
        batchesOf other session.taken := by
  constructor
  · apply retired.elsewhere
    · exact (threads_set found _ other).trans (if_neg different)
    · intro armed impossible
      contradiction
    · exact Nat.le_refl _
  · have record := batchesOf_map thread other [session.batch.drain.2]
    rw [if_neg different, List.map_singleton] at record
    exact (batchesOf_append other _ _).trans (by rw [record, List.append_nil])

theorem finish (retired : session.Retired other) {stage changed : Stage α}
    (found : session.threads[thread]? = some stage)
    (threads : next.threads = session.threads.set thread changed)
    (batch : next.batch = session.batch) (finished : other = thread → changed = .finished) :
    next.Retired other := by
  have changes := threads_set found changed other
  rw [← threads] at changes
  by_cases same : other = thread
  · rw [if_pos same, finished same] at changes
    exact ⟨.finished, changes, rfl, nofun⟩
  · apply retired.elsewhere (changes.trans (if_neg same))
    · exact fun generation armed => Or.inl (batch ▸ armed)
    · exact Nat.le_of_eq (congrArg Batch.generation batch.symm)

theorem moves (retired : session.Retired other) (moves : session.Moves next) :
    next.Retired other ∧ batchesOf other next.taken = batchesOf other session.taken := by
  cases moves with
  | stay => exact ⟨retired, rfl⟩
  | push thread item idle opened =>
      have different := retired.ne_of_stage idle rfl
      refine ⟨?_, rfl⟩
      have same := (threads_set idle (stageAfter session.batch item) other).trans (if_neg different)
      cases push_cases session.batch item with
      | filled stage timer generation =>
          exact retired.elsewhere same (fun _ armed => Or.inl (timer ▸ armed))
            (Nat.le_of_eq generation.symm)
      | joined stage timer generation armed =>
          exact retired.elsewhere same (fun _ armed => Or.inl (timer ▸ armed))
            (Nat.le_of_eq generation.symm)
      | armed stage timer generation =>
          apply retired.elsewhere same
          · intro younger armed
            rw [← Option.some.inj (timer.symm.trans armed)]
            exact Or.inr (Nat.lt_succ_self _)
          · exact Nat.le_trans (Nat.le_succ _) (Nat.le_of_eq generation.symm)
  | flush thread idle opened => exact retired.take idle (retired.ne_of_stage idle rfl) none
  | drain thread filled => exact retired.take filled (retired.ne_of_stage filled rfl) none
  | close thread idle opened =>
      exact retired.take idle (retired.ne_of_stage idle rfl) none
  | spawn thread generation starting =>
      have different := retired.ne_of_stage starting rfl
      refine ⟨?_, rfl⟩
      obtain ⟨stage, found, -⟩ := id retired
      apply retired.elsewhere
      · exact (stage_spawn starting found different).trans found.symm
      · exact fun _ armed => Or.inl armed
      · exact Nat.le_refl _
  | fail thread generation starting =>
      have different := retired.ne_of_stage starting rfl
      exact ⟨retired.finish starting rfl rfl fun same => absurd same different, rfl⟩
  | retire thread generation waiting stale =>
      exact ⟨retired.finish waiting rfl rfl fun _ => rfl, rfl⟩
  | expire thread generation waiting armed =>
      apply retired.take waiting
      rintro rfl
      obtain ⟨stage, found, -, unarmed⟩ := retired
      rw [waiting] at found
      exact (unarmed generation (Option.some.inj found).symm).1 armed
  | hand thread generation items holding =>
      refine ⟨retired.finish holding rfl rfl ?_, rfl⟩
      rintro rfl
      obtain ⟨stage, found, isTimer, -⟩ := retired
      rw [holding] at found
      cases found
      exact if_pos isTimer

theorem after (retired : session.Retired other) (actions : List (Action α)) :
    batchesOf other (session.after actions).taken = batchesOf other session.taken := by
  have kept := after_induction
    (fun later => later.Retired other ∧
      batchesOf other later.taken = batchesOf other session.taken)
    (fun _ _ before moves => ⟨(before.1.moves moves).1, (before.1.moves moves).2.trans before.2⟩)
    actions session ⟨retired, rfl⟩
  exact kept.2

end Retired

theorem Moves.options {session next : Session α} (moves : session.Moves next) :
    next.batch.options = session.batch.options := by
  cases moves with
  | push thread item idle opened => exact options_push session.batch item
  | _ => rfl

end Session

end Reckoner.Batch
