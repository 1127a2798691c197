import Reckoner.Proofs.Cache.Limits
import Reckoner.Proofs.Memo.Inclusion

/-!
Bundles of calls: a remembered function is called with each of some arguments by threads that share
its cache. The two steps of one call may stand apart, with steps of other calls between them.
Whatever their order is, the results come in the order of the arguments and are those of the
function.
-/

namespace Reckoner.Memo

variable {α ε β : Type}

inductive Stage (ε β : Type) where
  | waiting
  | running
  | returned (result : Except ε β)

def Stage.result? : Stage ε β → Option (Except ε β)
  | .returned result => some result
  | _ => none

def proceed (memo : Memo α ε β) (now : Nat) (argument : α) : Stage ε β → Memo α ε β × Stage ε β
  | .waiting =>
      match memo.lookup now argument with
      | (looked, some value) => (looked, .returned (.ok value))
      | (looked, none) => (looked, .running)
  | .running =>
      let result := memo.compute argument
      (memo.store now argument result, .returned result)
  | .returned result => (memo, .returned result)

theorem proceed_proceed (memo later : Memo α ε β) (now : Nat) (argument : α) (stage : Stage ε β) :
    ∃ result, (later.proceed now argument (memo.proceed now argument stage).2).2 =
      .returned result := by
  cases stage with
  | waiting =>
      unfold proceed
      dsimp only
      cases memo.lookup now argument with
      | mk looked found =>
          cases found with
          | none => exact ⟨_, rfl⟩
          | some value => exact ⟨_, rfl⟩
  | running => exact ⟨_, rfl⟩
  | returned result => exact ⟨_, rfl⟩

structure Bundle (α ε β : Type) where
  memo : Memo α ε β
  calls : List (α × Stage ε β)

namespace Bundle

def advance (now : Nat) (bundle : Bundle α ε β) (index : Nat) : Bundle α ε β :=
  match bundle.calls[index]? with
  | some (argument, stage) =>
      let (memo, stage) := bundle.memo.proceed now argument stage
      ⟨memo, bundle.calls.set index (argument, stage)⟩
  | none => bundle

def finish (now : Nat) (bundle : Bundle α ε β) (index : Nat) : Bundle α ε β :=
  (bundle.advance now index).advance now index

def results (bundle : Bundle α ε β) : List (Except ε β) :=
  bundle.calls.filterMap (·.2.result?)

end Bundle

/-- Calls with each of some arguments, side by side. The schedule names the calls in the order of
their steps; what it leaves undone is done in the order of the arguments. -/
def callMany (memo : Memo α ε β) (now : Nat) (schedule : List Nat) (arguments : List α) :
    Memo α ε β × List (Except ε β) :=
  let begun := schedule.foldl (Bundle.advance now) ⟨memo, arguments.map (·, .waiting)⟩
  let finished := (List.range arguments.length).foldl (Bundle.finish now) begun
  (finished.memo, finished.results)

namespace Bundle

theorem advance_found {now : Nat} {bundle : Bundle α ε β} {index : Nat} {argument : α}
    {stage : Stage ε β} (found : bundle.calls[index]? = some (argument, stage)) :
    bundle.advance now index =
      ⟨(bundle.memo.proceed now argument stage).1,
        bundle.calls.set index (argument, (bundle.memo.proceed now argument stage).2)⟩ := by
  simp only [advance, found]

theorem advance_missing {now : Nat} {bundle : Bundle α ε β} {index : Nat}
    (missing : bundle.calls[index]? = none) : bundle.advance now index = bundle := by
  simp only [advance, missing]

theorem advance_self (now : Nat) {bundle : Bundle α ε β} {index : Nat} {argument : α}
    {stage : Stage ε β} (found : bundle.calls[index]? = some (argument, stage)) :
    (bundle.advance now index).calls[index]? =
      some (argument, (bundle.memo.proceed now argument stage).2) := by
  have within := (List.getElem?_eq_some_iff.mp found).1
  rw [advance_found found, List.getElem?_set_self within]

@[simp] theorem length_advance (now : Nat) (bundle : Bundle α ε β) (index : Nat) :
    (bundle.advance now index).calls.length = bundle.calls.length := by
  cases found : bundle.calls[index]? with
  | none => rw [advance_missing found]
  | some call => simp [advance_found found]

@[simp] theorem length_finish (now : Nat) (bundle : Bundle α ε β) (index : Nat) :
    (bundle.finish now index).calls.length = bundle.calls.length := by
  simp [finish]

section
variable {now : Nat} {bundle : Bundle α ε β} {index : Nat} {argument : α} {result : Except ε β}

theorem advance_of_returned (returned : bundle.calls[index]? = some (argument, .returned result))
    (other : Nat) :
    (bundle.advance now other).calls[index]? = some (argument, .returned result) := by
  by_cases same : other = index
  · rw [same, advance_self now returned]
    rfl
  · cases found : bundle.calls[other]? with
    | none => rw [advance_missing found, returned]
    | some call => rw [advance_found found, List.getElem?_set_ne same, returned]

theorem foldl_finish_of_returned
    (returned : bundle.calls[index]? = some (argument, .returned result)) (indices : List Nat) :
    (indices.foldl (finish now) bundle).calls[index]? = some (argument, .returned result) := by
  induction indices generalizing bundle with
  | nil => exact returned
  | cons other rest ih => exact ih (advance_of_returned (advance_of_returned returned other) other)

end

theorem finish_returns (now : Nat) {bundle : Bundle α ε β} {index : Nat}
    (within : index < bundle.calls.length) :
    ∃ argument result,
      (bundle.finish now index).calls[index]? = some (argument, .returned result) := by
  obtain ⟨⟨argument, stage⟩, found⟩ : ∃ call, bundle.calls[index]? = some call :=
    ⟨_, List.getElem?_eq_getElem within⟩
  have second := advance_self now (advance_self now found)
  obtain ⟨result, last⟩ := proceed_proceed bundle.memo (bundle.advance now index).memo now argument
    stage
  rw [last] at second
  exact ⟨argument, result, second⟩

theorem foldl_finish_returns (now : Nat) {indices : List Nat} {bundle : Bundle α ε β} {index : Nat}
    (member : index ∈ indices) (within : index < bundle.calls.length) :
    ∃ argument result, (indices.foldl (finish now) bundle).calls[index]? =
      some (argument, .returned result) := by
  induction indices generalizing bundle with
  | nil => contradiction
  | cons first rest ih =>
      rcases List.mem_cons.mp member with rfl | later
      · obtain ⟨argument, result, returned⟩ := finish_returns now within
        exact ⟨argument, result, foldl_finish_of_returned returned rest⟩
      · exact ih later (by simpa using within)

structure Faithful (key : α → String) (compute : α → Except ε β) (arguments : List α)
    (bundle : Bundle α ε β) : Prop where
  honest : Honest key compute ⟨bundle.memo, 0, []⟩
  arguments : bundle.calls.map (·.1) = arguments
  results : ∀ call ∈ bundle.calls, ∀ result, call.2 = .returned result → result = compute call.1

end Bundle

namespace Bundle

theorem Faithful.foldl {key : α → String} {compute : α → Except ε β} {arguments : List α}
    {bundle : Bundle α ε β} (faithful : Faithful key compute arguments bundle)
    {step : Bundle α ε β → Nat → Bundle α ε β}
    (kept : ∀ bundle, Faithful key compute arguments bundle → ∀ index,
      Faithful key compute arguments (step bundle index))
    (indices : List Nat) : Faithful key compute arguments (indices.foldl step bundle) := by
  induction indices generalizing bundle with
  | nil => exact faithful
  | cons index rest ih => exact ih (kept bundle faithful index)

theorem Faithful.results_eq {key : α → String} {compute : α → Except ε β} {arguments : List α}
    {bundle : Bundle α ε β} (faithful : Faithful key compute arguments bundle)
    (returned : ∀ index < bundle.calls.length,
      ∃ argument result, bundle.calls[index]? = some (argument, .returned result)) :
    bundle.results = arguments.map compute := by
  have each : ∀ call ∈ bundle.calls, call.2.result? = some (compute call.1) := by
    intro call member
    obtain ⟨index, within, rfl⟩ := List.mem_iff_getElem.mp member
    obtain ⟨argument, result, found⟩ := returned index within
    have same := (List.getElem?_eq_getElem within).symm.trans found
    have given := faithful.results _ member result (by rw [Option.some.inj same])
    rw [← given, Option.some.inj same]
    rfl
  calc bundle.results = bundle.calls.filterMap fun call => some (compute call.1) :=
        List.filterMap_congr each
    _ = (bundle.calls.map (·.1)).map compute := by simp
    _ = arguments.map compute := by rw [faithful.arguments]

end Bundle

section
variable {key : α → String} {compute : α → Except ε β}
  (consistent : ∀ argument other, key argument = key other → compute argument = compute other)
include consistent

theorem Honest.proceed {memo : Memo α ε β} (honest : Honest key compute ⟨memo, 0, []⟩) (now : Nat)
    (argument : α) {stage : Stage ε β}
    (given : ∀ result, stage = .returned result → result = compute argument) :
    Honest key compute ⟨(memo.proceed now argument stage).1, 0, []⟩ ∧
      ∀ result, (memo.proceed now argument stage).2 = .returned result →
        result = compute argument := by
  have timed : Honest key compute ⟨memo, now, []⟩ := honest.step consistent (.clock now)
  cases stage with
  | waiting =>
      have started := timed.start argument
      rw [Session.start_eq] at started
      unfold Memo.proceed
      dsimp only
      cases looked : memo.lookup now argument with
      | mk after found =>
          rw [looked] at started
          cases found with
          | none => exact ⟨{ started with answers := by simp }, by simp⟩
          | some value =>
              refine ⟨{ started with answers := by simp }, ?_⟩
              intro result returned
              cases returned
              exact started.answers _ (List.mem_singleton.mpr rfl) _ rfl
  | running =>
      unfold Memo.proceed
      dsimp only
      rw [show memo.compute = compute from honest.computed]
      refine ⟨⟨?_, ?_, timed.store consistent argument, by simp⟩, ?_⟩
      · exact (store_frame memo now argument _).1.trans honest.keyed
      · exact (store_frame memo now argument _).2.trans honest.computed
      · intro result returned
        cases returned
        rfl
  | returned result => exact ⟨honest, given⟩

namespace Bundle

theorem Faithful.advance {arguments : List α} {bundle : Bundle α ε β}
    (faithful : Faithful key compute arguments bundle) (now index : Nat) :
    Faithful key compute arguments (bundle.advance now index) := by
  cases found : bundle.calls[index]? with
  | none => exact (advance_missing found).symm ▸ faithful
  | some call =>
      obtain ⟨argument, stage⟩ := call
      have member := List.mem_of_getElem? found
      have next := faithful.honest.proceed consistent now argument
        (fun result => faithful.results _ member result)
      rw [advance_found found]
      constructor
      · exact next.1
      · have own : (bundle.calls.map (·.1))[index]? = some argument := by simp [found]
        obtain ⟨inside, same⟩ := List.getElem?_eq_some_iff.mp own
        rw [List.map_set, ← faithful.arguments]
        exact (congrArg _ same.symm).trans (List.set_getElem_self inside)
      · intro call member
        rcases List.mem_or_eq_of_mem_set member with old | new
        · exact faithful.results call old
        · rw [new]
          exact next.2

end Bundle

theorem Honest.callMany {memo : Memo α ε β} (honest : Honest key compute ⟨memo, 0, []⟩) (now : Nat)
    (schedule : List Nat) (arguments : List α) :
    Honest key compute ⟨(memo.callMany now schedule arguments).1, 0, []⟩ ∧
      (memo.callMany now schedule arguments).2 = arguments.map compute := by
  unfold Memo.callMany
  extract_lets begun finished
  have start : Bundle.Faithful key compute arguments ⟨memo, arguments.map (·, .waiting)⟩ :=
    ⟨honest, by simp [Function.comp_def], by simp⟩
  have going : Bundle.Faithful key compute arguments begun :=
    start.foldl (fun _ faithful => faithful.advance consistent now) schedule
  have done : Bundle.Faithful key compute arguments finished :=
    going.foldl (fun _ faithful index =>
      (faithful.advance consistent now index).advance consistent now index) _
  have length := congrArg List.length done.arguments
  have length' := congrArg List.length going.arguments
  rw [List.length_map] at length length'
  refine ⟨done.honest, done.results_eq ?_⟩
  intro index within
  exact Bundle.foldl_finish_returns now (List.mem_range.mpr (length ▸ within)) (by omega)

end

theorem Bundle.finish_waiting (memo : Memo α ε β) (now : Nat) (argument : α)
    (front back : List (α × Stage ε β)) :
    Bundle.finish now ⟨memo, front ++ (argument, .waiting) :: back⟩ front.length =
      ⟨(memo.call now argument).1,
        front ++ (argument, .returned (memo.call now argument).2.result) :: back⟩ := by
  have here (stage : Stage ε β) :
      (front ++ (argument, stage) :: back)[front.length]? = some (argument, stage) := by simp
  have step (memo : Memo α ε β) (stage : Stage ε β) :
      Bundle.advance now ⟨memo, front ++ (argument, stage) :: back⟩ front.length =
        ⟨(memo.proceed now argument stage).1,
          front ++ (argument, (memo.proceed now argument stage).2) :: back⟩ := by
    rw [advance_found (here stage)]
    simp
  rw [finish, step, step]
  unfold Memo.call callWith proceed
  dsimp only
  cases looked : memo.lookup now argument with
  | mk after found =>
      cases found with
      | some value => rfl
      | none =>
          have same : after.compute = memo.compute :=
            congrArg (fun pair => pair.1.compute) looked.symm
          dsimp only
          rw [same]

theorem Bundle.foldl_finish_waiting (memo : Memo α ε β) (now : Nat) (arguments : List α)
    (front : List (α × Stage ε β)) :
    let finished := (List.range' front.length arguments.length).foldl (Bundle.finish now)
      ⟨memo, front ++ arguments.map (·, .waiting)⟩
    finished.memo = (memo.callAll now arguments).1 ∧
      finished.results =
        front.filterMap (·.2.result?) ++ (memo.callAll now arguments).2.map (·.result) := by
  induction arguments generalizing memo front with
  | nil => simp [callAll, results]
  | cons argument rest ih =>
      have next := ih (memo.call now argument).1
        (front ++ [(argument, .returned (memo.call now argument).2.result)])
      rw [List.length_append, List.append_assoc] at next
      rw [List.length_cons, List.range'_succ, List.map_cons]
      intro finished
      unfold finished
      rw [List.foldl_cons, finish_waiting]
      exact ⟨next.1, next.2.trans (by simp [callAll, Stage.result?])⟩

theorem callMany_nil (memo : Memo α ε β) (now : Nat) (arguments : List α) :
    memo.callMany now [] arguments =
      ((memo.callAll now arguments).1, (memo.callAll now arguments).2.map (·.result)) := by
  obtain ⟨after, results⟩ := Bundle.foldl_finish_waiting memo now arguments []
  rw [List.length_nil, ← List.range_eq_range'] at after results
  exact Prod.ext after results

theorem call_frame (memo : Memo α ε β) (now : Nat) (argument : α) :
    (memo.call now argument).1.key = memo.key ∧
      (memo.call now argument).1.compute = memo.compute := by
  cases found : (memo.cache.get now (memo.key argument)).2 with
  | some value =>
      rw [call_of_found found]
      exact ⟨rfl, rfl⟩
  | none =>
      rw [call_of_missing found]
      exact store_frame _ _ _ _

theorem limits_lookup (memo : Memo α ε β) (now : Nat) (argument : α) :
    (memo.lookup now argument).1.cache.limits = memo.cache.limits :=
  Cache.limits_get _ _ _

theorem limits_store (memo : Memo α ε β) (now : Nat) (argument : α) (result : Except ε β) :
    (memo.store now argument result).cache.limits = memo.cache.limits := by
  cases result with
  | error failure => rfl
  | ok value => exact Cache.limits_set _ _ _ _

theorem limits_proceed (memo : Memo α ε β) (now : Nat) (argument : α) (stage : Stage ε β) :
    (memo.proceed now argument stage).1.cache.limits = memo.cache.limits := by
  cases stage with
  | waiting =>
      have kept := memo.limits_lookup now argument
      unfold proceed
      dsimp only
      cases looked : memo.lookup now argument with
      | mk after found =>
          rw [looked] at kept
          cases found <;> exact kept
  | running => exact memo.limits_store now argument _
  | returned result => rfl

theorem limits_call (memo : Memo α ε β) (now : Nat) (argument : α) :
    (memo.call now argument).1.cache.limits = memo.cache.limits := by
  cases found : (memo.cache.get now (memo.key argument)).2 with
  | some value =>
      rw [call_of_found found]
      exact memo.limits_lookup now argument
  | none =>
      rw [call_of_missing found, limits_store]
      exact memo.limits_lookup now argument

theorem Bundle.limits_advance (now : Nat) (bundle : Bundle α ε β) (index : Nat) :
    (bundle.advance now index).memo.cache.limits = bundle.memo.cache.limits := by
  cases found : bundle.calls[index]? with
  | none => rw [advance_missing found]
  | some call =>
      rw [advance_found found]
      exact limits_proceed _ _ _ _

theorem Bundle.limits_foldl {step : Bundle α ε β → Nat → Bundle α ε β}
    (kept : ∀ bundle index, (step bundle index).memo.cache.limits = bundle.memo.cache.limits)
    (bundle : Bundle α ε β) (indices : List Nat) :
    (indices.foldl step bundle).memo.cache.limits = bundle.memo.cache.limits := by
  induction indices generalizing bundle with
  | nil => rfl
  | cons index rest ih => exact (ih _).trans (kept bundle index)

theorem Bundle.limits_finish (now : Nat) (bundle : Bundle α ε β) (index : Nat) :
    (bundle.finish now index).memo.cache.limits = bundle.memo.cache.limits := by
  rw [finish, limits_advance, limits_advance]

theorem limits_callMany (memo : Memo α ε β) (now : Nat) (schedule : List Nat)
    (arguments : List α) :
    (memo.callMany now schedule arguments).1.cache.limits = memo.cache.limits := by
  unfold callMany
  extract_lets begun finished
  rw [Bundle.limits_foldl (Bundle.limits_finish now),
    Bundle.limits_foldl (Bundle.limits_advance now)]

section
variable {memo : Memo α ε β} (lasting : memo.cache.limits.lifetime = none) (now later : Nat)
include lasting

theorem lookup_lasting (argument : α) : memo.lookup now argument = memo.lookup later argument := by
  simp only [lookup, Cache.get_lasting lasting now later]

theorem store_lasting (argument : α) (result : Except ε β) :
    memo.store now argument result = memo.store later argument result := by
  cases result with
  | error failure => rfl
  | ok value => simp only [store, Cache.set_lasting lasting now later]

theorem call_lasting (argument : α) : memo.call now argument = memo.call later argument := by
  have kept := memo.limits_lookup later argument
  unfold call callWith
  rw [lookup_lasting lasting now later]
  cases looked : memo.lookup later argument with
  | mk after found =>
      rw [looked] at kept
      cases found with
      | some value => rfl
      | none =>
          dsimp only
          rw [store_lasting (kept.symm ▸ lasting) now later]

theorem proceed_lasting (argument : α) (stage : Stage ε β) :
    memo.proceed now argument stage = memo.proceed later argument stage := by
  cases stage with
  | waiting => simp only [proceed, lookup_lasting lasting now later]
  | running => simp only [proceed, store_lasting lasting now later]
  | returned result => rfl

end

namespace Bundle

theorem advance_lasting {bundle : Bundle α ε β}
    (lasting : bundle.memo.cache.limits.lifetime = none) (now later index : Nat) :
    bundle.advance now index = bundle.advance later index := by
  simp only [advance, proceed_lasting lasting now later]

theorem finish_lasting {bundle : Bundle α ε β}
    (lasting : bundle.memo.cache.limits.lifetime = none) (now later index : Nat) :
    bundle.finish now index = bundle.finish later index := by
  rw [finish, finish, advance_lasting lasting now later]
  apply advance_lasting
  rw [limits_advance, lasting]

theorem foldl_lasting {step other : Bundle α ε β → Nat → Bundle α ε β}
    (same : ∀ bundle, bundle.memo.cache.limits.lifetime = none →
      ∀ index, step bundle index = other bundle index)
    (kept : ∀ bundle index, (step bundle index).memo.cache.limits = bundle.memo.cache.limits)
    {bundle : Bundle α ε β} (lasting : bundle.memo.cache.limits.lifetime = none)
    (indices : List Nat) : indices.foldl step bundle = indices.foldl other bundle := by
  induction indices generalizing bundle with
  | nil => rfl
  | cons index rest ih =>
      rw [List.foldl_cons, List.foldl_cons, ← same bundle lasting index]
      exact ih (by rw [kept, lasting])

end Bundle

theorem callMany_lasting {memo : Memo α ε β} (lasting : memo.cache.limits.lifetime = none)
    (now later : Nat) (schedule : List Nat) (arguments : List α) :
    memo.callMany now schedule arguments = memo.callMany later schedule arguments := by
  let start : Bundle α ε β := ⟨memo, arguments.map (·, .waiting)⟩
  have begun : schedule.foldl (Bundle.advance now) start =
      schedule.foldl (Bundle.advance later) start :=
    Bundle.foldl_lasting (fun _ lasting => Bundle.advance_lasting lasting now later)
      (Bundle.limits_advance now) lasting schedule
  have kept := Bundle.limits_foldl (Bundle.limits_advance later) start schedule
  have finished := Bundle.foldl_lasting
    (fun _ lasting => Bundle.finish_lasting lasting now later) (Bundle.limits_finish now)
    (kept.symm ▸ lasting) (List.range arguments.length)
  unfold callMany
  dsimp only
  rw [begun, finished]

end Reckoner.Memo
