import Reckoner.Proofs.Batch.Threads

/-!
Delivery: whatever the threads do and in whatever order, what has been taken out of the queue, batch
after batch, followed by what still waits in it is what was pushed, and each thread delivers the
batches that it took, once each and in its order, except for empty ones.
-/

namespace Reckoner.Batch

variable {α : Type}

def Stage.held : Stage α → List (List α)
  | .holding _ items => deliver items
  | _ => []

def Session.heldBy (session : Session α) (thread : Nat) : List (List α) :=
  match session.threads[thread]? with
  | some stage => stage.held
  | none => []

theorem flatMap_deliver (batches : List (List α)) :
    batches.flatMap deliver = batches.filter fun batch => !batch.isEmpty := by
  induction batches with
  | nil => rfl
  | cons batch rest ih => cases batch <;> simp [deliver, ih]

theorem queue_push (batch : Batch α) (item : α) :
    (batch.push item).queue = batch.queue ++ [item] := by
  unfold push
  dsimp only
  split <;> rfl

theorem held_stageAfter (batch : Batch α) (item : α) : (stageAfter batch item).held = [] := by
  unfold stageAfter
  dsimp only
  split
  · rfl
  · split <;> rfl

namespace Session

theorem heldBy_of_threads {session next : Session α} {thread other : Nat} {stage : Stage α}
    (found : next.threads[other]? =
      if other = thread then some stage else session.threads[other]?) :
    next.heldBy other = if other = thread then stage.held else session.heldBy other := by
  unfold heldBy
  rw [found]
  by_cases same : other = thread <;> simp [same]

theorem heldBy_of_stage {session : Session α} {thread : Nat} {stage : Stage α}
    (found : session.threads[thread]? = some stage) : session.heldBy thread = stage.held := by
  simp only [heldBy, found]

theorem heldBy_of_missing {session : Session α} {thread : Nat}
    (missing : session.threads[thread]? = none) : session.heldBy thread = [] := by
  simp only [heldBy, missing]

theorem heldBy_unheld {session next : Session α} {thread : Nat} {stage changed : Stage α}
    (found : session.threads[thread]? = some stage) (unheld : stage.held = [])
    (unheldAfter : changed.held = []) (same : next.threads = session.threads.set thread changed)
    (other : Nat) : next.heldBy other = session.heldBy other := by
  rw [heldBy_of_threads (same ▸ threads_set found changed other)]
  split
  · rename_i here
    rw [here, heldBy_of_stage found, unheld, unheldAfter]
  · rfl

/-- The account of all items: where each has come and by whom. -/
structure Accounted (session : Session α) : Prop where
  order : session.taken.flatMap (·.2) ++ session.batch.queue = session.pushed
  handed : ∀ thread, (batchesOf thread session.taken).flatMap deliver =
    batchesOf thread session.delivered ++ session.heldBy thread
  nonempty : ∀ entry ∈ session.delivered, entry.2 ≠ []
  emptied : session.closed = true → session.batch.queue = []

namespace Accounted

variable {session : Session α}

theorem push (accounted : session.Accounted) {thread : Nat} (item : α)
    (idle : session.threads[thread]? = some .idle) (opened : session.closed = false) :
    (session.push thread item).Accounted := by
  constructor
  case order =>
    change session.taken.flatMap (·.2) ++ (session.batch.push item).queue = session.pushed ++ [item]
    rw [queue_push, ← accounted.order, List.append_assoc]
  case handed =>
    intro other
    rw [heldBy_unheld idle rfl (held_stageAfter session.batch item) rfl other]
    exact accounted.handed other
  case nonempty => exact accounted.nonempty
  case emptied =>
    intro closed
    exact absurd (closed.symm.trans opened) (by simp)

theorem take (accounted : session.Accounted) {thread : Nat} {stage : Stage α}
    (found : session.threads[thread]? = some stage) (unheld : stage.held = [])
    (generation : Option Nat) :
    (session.take thread generation session.batch.drain).Accounted := by
  constructor
  case order =>
    change (session.taken ++ [(thread, session.batch.queue)]).flatMap (·.2) ++ [] = session.pushed
    rw [← accounted.order]
    simp
  case handed =>
    intro other
    change (batchesOf other (session.taken ++ [(thread, session.batch.queue)])).flatMap deliver =
      batchesOf other session.delivered ++ _
    have before := accounted.handed other
    rw [heldBy_of_threads (threads_set found (.holding generation session.batch.queue) other),
      batchesOf_append, List.flatMap_append, before]
    have record := batchesOf_map thread other [session.batch.queue]
    rw [List.map_singleton] at record
    rw [record]
    by_cases same : other = thread
    · rw [if_pos same, if_pos same, same, heldBy_of_stage found, unheld]
      simp [Stage.held]
    · simp [same]
  case nonempty => exact accounted.nonempty
  case emptied => exact fun _ => rfl

theorem spawn (accounted : session.Accounted) {thread generation : Nat}
    (starting : session.threads[thread]? = some (.starting generation)) :
    (session.spawn thread generation).Accounted := by
  have kept (other : Nat) :
      (session.spawn thread generation).heldBy other = session.heldBy other := by
    have threads := threads_spawn starting generation other
    by_cases same : other = thread
    · rw [if_pos same] at threads
      rw [heldBy_of_stage threads, same, heldBy_of_stage starting]
      rfl
    · rw [if_neg same] at threads
      by_cases last : other = session.threads.length
      · rw [if_pos last] at threads
        rw [heldBy_of_stage threads, last,
          heldBy_of_missing (List.getElem?_eq_none (Nat.le_refl _))]
        rfl
      · rw [if_neg last] at threads
        simp only [heldBy, threads]
  exact { accounted with handed := fun other => kept other ▸ accounted.handed other }

theorem fail (accounted : session.Accounted) {thread generation : Nat}
    (starting : session.threads[thread]? = some (.starting generation)) :
    (session.fail thread generation).Accounted := by
  have kept : ∀ other, (session.fail thread generation).heldBy other = session.heldBy other :=
    heldBy_unheld starting rfl rfl rfl
  exact { accounted with handed := fun other => kept other ▸ accounted.handed other }

theorem retire (accounted : session.Accounted) {thread generation : Nat}
    (waiting : session.threads[thread]? = some (.waiting generation)) :
    (session.retire thread).Accounted := by
  have kept : ∀ other, (session.retire thread).heldBy other = session.heldBy other :=
    heldBy_unheld waiting rfl rfl rfl
  exact { accounted with handed := fun other => kept other ▸ accounted.handed other }

theorem hand (accounted : session.Accounted) {thread : Nat} {generation : Option Nat}
    {items : List α} (holding : session.threads[thread]? = some (.holding generation items)) :
    (session.hand thread generation items).Accounted := by
  constructor
  case order => exact accounted.order
  case handed =>
    intro other
    change (batchesOf other session.taken).flatMap deliver =
      batchesOf other (session.delivered ++ (deliver items).map fun batch => (thread, batch)) ++ _
    have before := accounted.handed other
    rw [heldBy_of_threads (threads_set holding _ other), batchesOf_append, batchesOf_map, before]
    by_cases same : other = thread
    · rw [if_pos same, if_pos same, same, heldBy_of_stage holding]
      cases generation <;> simp [Stage.held]
    · simp [same]
  case nonempty =>
    intro entry member
    rcases List.mem_append.mp member with old | new
    · exact accounted.nonempty entry old
    · obtain ⟨batch, delivered, rfl⟩ := List.mem_map.mp new
      unfold deliver at delivered
      split at delivered
      · contradiction
      · rename_i filled
        rw [List.mem_singleton.mp delivered]
        simpa using filled
  case emptied => exact accounted.emptied

theorem moves (accounted : session.Accounted) {next : Session α} (moves : session.Moves next) :
    next.Accounted := by
  cases moves with
  | stay => exact accounted
  | push thread item idle opened => exact accounted.push item idle opened
  | flush thread idle opened => exact accounted.take idle rfl none
  | drain thread filled => exact accounted.take filled rfl none
  | close thread idle opened => exact { accounted.take idle rfl none with emptied := fun _ => rfl }
  | spawn thread generation starting => exact accounted.spawn starting
  | fail thread generation starting => exact accounted.fail starting
  | retire thread generation waiting stale => exact accounted.retire waiting
  | expire thread generation waiting armed => exact accounted.take waiting rfl (some generation)
  | hand thread generation items holding => exact accounted.hand holding

end Accounted

theorem new_accounted (options : Options) (callers : Nat) :
    (new options callers : Session α).Accounted := by
  constructor
  case order => rfl
  case handed =>
    intro thread
    unfold heldBy new
    rw [List.getElem?_replicate]
    by_cases within : thread < callers <;> simp [within, batchesOf, Stage.held]
  case nonempty => simp [new]
  case emptied => simp [new]

theorem accounted_after (options : Options) (callers : Nat) (actions : List (Action α)) :
    ((new options callers).after actions).Accounted :=
  after_induction Accounted (fun _ _ accounted moves => accounted.moves moves) actions _
    (new_accounted options callers)

/-- What becomes of the items, as far as a caller can tell. -/
structure Conserved (session : Session α) : Prop where
  order : session.taken.flatMap (·.2) ++ session.batch.queue = session.pushed
  once : ∀ thread, (batchesOf thread session.taken).filter (fun batch => !batch.isEmpty) =
    batchesOf thread session.delivered ++ session.heldBy thread
  handed : ∀ thread, (batchesOf thread session.taken).filter (fun batch => !batch.isEmpty) =
    batchesOf thread (session.step (.deliver thread)).delivered
  nonempty : ∀ entry ∈ session.delivered, entry.2 ≠ []
  emptied : session.closed = true → session.batch.queue = []
  settled : session.closed = true → ∀ item ∈ session.pushed,
    (∃ entry ∈ session.delivered, item ∈ entry.2) ∨
      ∃ thread, ∃ batch ∈ session.heldBy thread, item ∈ batch

theorem delivered_step_deliver (session : Session α) (thread : Nat) :
    batchesOf thread (session.step (.deliver thread)).delivered =
      batchesOf thread session.delivered ++ session.heldBy thread := by
  unfold step heldBy
  cases found : session.threads[thread]? with
  | none => simp [found]
  | some stage =>
      cases stage <;> simp [found, Stage.held, hand, batchesOf_append, batchesOf_map]

theorem Accounted.conserved {session : Session α} (accounted : session.Accounted) :
    session.Conserved := by
  have once (thread : Nat) :=
    (flatMap_deliver (batchesOf thread session.taken)).symm.trans (accounted.handed thread)
  constructor
  case order => exact accounted.order
  case once => exact once
  case handed =>
    intro thread
    rw [delivered_step_deliver, once]
  case nonempty => exact accounted.nonempty
  case emptied => exact accounted.emptied
  case settled =>
    intro closed item pushed
    rw [← accounted.order, accounted.emptied closed, List.append_nil] at pushed
    obtain ⟨⟨thread, batch⟩, taken, within⟩ := List.mem_flatMap.mp pushed
    have mine : batch ∈ (batchesOf thread session.taken).filter fun batch => !batch.isEmpty := by
      simp only [batchesOf, List.mem_filter, List.mem_map]
      refine ⟨⟨(thread, batch), ⟨taken, by simp⟩, rfl⟩, ?_⟩
      simpa using List.ne_nil_of_mem within
    rw [once] at mine
    rcases List.mem_append.mp mine with delivered | held
    · obtain ⟨entry, member, rfl⟩ := List.mem_map.mp delivered
      exact Or.inl ⟨entry, (List.mem_filter.mp member).1, within⟩
    · exact Or.inr ⟨thread, batch, held, within⟩

/-- However many callers share a queue of whatever batch size, and however their steps and those of
the timers' threads follow one another, no item is lost, delivered twice or put out of order. -/
theorem conserved_after (options : Options) (callers : Nat) (actions : List (Action α)) :
    ((new options callers).after actions).Conserved :=
  (accounted_after options callers actions).conserved

end Session

end Reckoner.Batch
