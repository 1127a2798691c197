import Mathlib.Data.List.Dedup
import Mathlib.Data.List.Perm.Subperm
import Reckoner.Proofs.Cache.Balance
import Reckoner.Proofs.Memo.Lifetime

/-!
The work that a remembered function saves. Nothing is assumed of the function: each run may change a
state and depend on it, and may fail. The runs are told by the function itself, which keeps a list
of them beside its state. There is one for every look-up that finds nothing and no other, and each
that gives a result brings an entry into the memory.
-/

namespace Reckoner.Memo

open Cache (Represents Recency)

variable {σ α ε β : Type}

structure Run (α ε β : Type) where
  argument : α
  result : Except ε β

/-- A function that keeps a list of its runs beside its state, the latest first. -/
def recording (function : α → σ → Except ε β × σ) (argument : α)
    (state : σ × List (Run α ε β)) : Except ε β × (σ × List (Run α ε β)) :=
  let (result, next) := function argument state.1
  (result, next, ⟨argument, result⟩ :: state.2)

theorem recording_eq {function : α → σ → Except ε β × σ} {argument : α}
    {before after : σ × List (Run α ε β)} {result : Except ε β}
    (run : recording function argument before = (result, after)) :
    result = (function argument before.1).1 ∧
      after = ((function argument before.1).2, ⟨argument, result⟩ :: before.2) := by
  cases run
  exact ⟨rfl, rfl⟩

def successes (key : α → String) (runs : List (Run α ε β)) : List String :=
  runs.filterMap fun run => match run.result with
    | .ok _ => some (key run.argument)
    | .error _ => none

def Course.Use.argument? : Course.Use α → Option α
  | .call _ _ argument => some argument
  | .clear => none

namespace Course

def cleared (function : α → σ → Except ε β × σ) (course : Course σ α ε β) :
    List (Use α) → Nat
  | [] => 0
  | .clear :: rest => course.memo.stats.size + course.clear.cleared function rest
  | .call asked stored argument :: rest =>
      (course.call function asked stored argument).1.cleared function rest

inductive Outcome (function : α → σ → Except ε β × σ) (course : Course σ α ε β)
    (recency : Recency β) (asked stored : Nat) (argument : α) (after : Course σ α ε β)
    (answer : Answer ε β) : Recency β → Prop
  | found {value : β} (hit : (recency.get asked (course.memo.key argument)).2 = some value)
      (answered : answer = ⟨.ok value, false⟩) (idle : after.state = course.state) :
      Outcome function course recency asked stored argument after answer
        (recency.get asked (course.memo.key argument)).1
  | failed {failure : ε} (missed : (recency.get asked (course.memo.key argument)).2 = none)
      (answered : answer = ⟨.error failure, true⟩)
      (run : function argument course.state = (.error failure, after.state)) :
      Outcome function course recency asked stored argument after answer
        (recency.get asked (course.memo.key argument)).1
  | stored {value : β} (missed : (recency.get asked (course.memo.key argument)).2 = none)
      (answered : answer = ⟨.ok value, true⟩)
      (run : function argument course.state = (.ok value, after.state)) :
      Outcome function course recency asked stored argument after answer
        ((recency.get asked (course.memo.key argument)).1.set stored (course.memo.key argument)
          value)

theorem outcome_call (function : α → σ → Except ε β × σ) {course : Course σ α ε β}
    {recency : Recency β} {chain : List Nat}
    (represents : Represents course.memo.cache chain recency) (asked stored : Nat)
    (argument : α) :
    ∃ next, Outcome function course recency asked stored argument
        (course.call function asked stored argument).1
        (course.call function asked stored argument).2 next ∧
      ∃ order, Represents (course.call function asked stored argument).1.memo.cache order next := by
  obtain ⟨⟨order, looked⟩, same⟩ := represents.get asked (course.memo.key argument)
  cases found : (course.memo.cache.get asked (course.memo.key argument)).2 with
  | some value =>
      rw [call_of_found function found]
      exact ⟨_, .found (same.symm.trans found) rfl rfl, order, looked⟩
  | none =>
      rcases run : function argument course.state with ⟨result, state⟩
      rw [call_of_missing found run]
      cases result with
      | error failure => exact ⟨_, .failed (same.symm.trans found) rfl run, order, looked⟩
      | ok value =>
          exact ⟨_, .stored (same.symm.trans found) rfl run,
            looked.set stored (course.memo.key argument) value⟩

section
variable (function : α → σ → Except ε β × σ) {course : Course (σ × List (Run α ε β)) α ε β}
  {recency : Recency β}

structure Frugal (course : Course (σ × List (Run α ε β)) α ε β) (asked : Nat) (argument : α)
    (after : Course (σ × List (Run α ε β)) α ε β) (answer : Answer ε β) : Prop where
  found : answer.computed = false → after.memo.stats.tally = course.memo.stats.tally.hit ∧
    after.state = course.state
  computed : answer.computed = true →
    after.memo.stats.tally.hits = course.memo.stats.tally.hits ∧
    after.memo.stats.tally.misses = course.memo.stats.tally.misses + 1 ∧
    answer.result = (function argument course.state.1).1 ∧
    after.state = ((function argument course.state.1).2,
      ⟨argument, answer.result⟩ :: course.state.2)
  failed : ∀ failure, answer.result = .error failure →
    after.memo.cache.contents = course.memo.cache.contents.filter fun held =>
      !(held.1 == course.memo.key argument && course.memo.cache.limits.isExpired asked held.2)

theorem frugal_call (represents : ∃ chain, Represents course.memo.cache chain recency)
    (asked stored : Nat) (argument : α) :
    Frugal function course asked argument
      (course.call (recording function) asked stored argument).1
      (course.call (recording function) asked stored argument).2 := by
  obtain ⟨chain, represents⟩ := represents
  obtain ⟨next, outcome, order, represents'⟩ :=
    outcome_call (recording function) represents asked stored argument
  have tally := represents.tally
  have tally' := represents'.tally
  have contents := represents.contents_eq
  have contents' := represents'.contents_eq
  have limits := represents.limits
  generalize (course.call (recording function) asked stored argument).1 = after at *
  generalize (course.call (recording function) asked stored argument).2 = answer at *
  have distinct := represents.distinct
  cases outcome with
  | found hit answered idle =>
      subst answered
      have counted := (Recency.hit_get distinct hit).1
      rw [tally', tally] at counted
      exact ⟨fun _ => ⟨counted, idle⟩, by simp, by simp⟩
  | failed missed answered run =>
      subst answered
      obtain ⟨hits, misses, -, entries⟩ := Recency.missed_get distinct missed
      rw [tally', tally] at hits misses
      rw [← contents', ← contents, limits] at entries
      exact ⟨by simp, fun _ => ⟨hits, misses, recording_eq run⟩, fun _ _ => entries⟩
  | @stored value missed answered run =>
      subst answered
      obtain ⟨hits, misses, -, -⟩ := Recency.missed_get distinct missed
      obtain ⟨-, hits', misses'⟩ := Recency.set_frame _ stored (course.memo.key argument) value
      rw [← hits', tally', tally] at hits
      rw [← misses', tally', tally] at misses
      exact ⟨by simp, fun _ => ⟨hits, misses, recording_eq run⟩, by simp⟩

structure Spends (limits : Cache.Limits) (calls cleared : Nat)
    (course : Course (σ × List (Run α ε β)) α ε β) (recency : Recency β) : Prop where
  represents : ∃ chain, Represents course.memo.cache chain recency
  limited : recency.limits = limits
  lookups : recency.lookups = calls
  runs : course.state.2.length = recency.tally.misses
  results : limits.capacity ≠ 0 →
    (successes course.memo.key course.state.2).length = recency.turnover + cleared

namespace Spends

variable {limits : Cache.Limits} {calls lost : Nat}

theorem call (spends : Spends limits calls lost course recency) (asked stored : Nat)
    (argument : α) :
    ∃ next, Spends limits (calls + 1) lost
      (course.call (recording function) asked stored argument).1 next := by
  obtain ⟨chain, represents⟩ := spends.represents
  have distinct := represents.distinct
  obtain ⟨next, outcome, represents'⟩ :=
    outcome_call (recording function) represents asked stored argument
  have key : (course.call (recording function) asked stored argument).1.memo.key =
      course.memo.key := key_call (recording function) stored
  have kept := recency.limits_get asked (course.memo.key argument)
  have lookups := recency.lookups_get asked (course.memo.key argument)
  have turnover := Recency.turnover_get distinct asked (course.memo.key argument)
  generalize (course.call (recording function) asked stored argument).1 = after at *
  refine ⟨next, ?_⟩
  cases outcome with
  | found hit answered idle =>
      have tally := (Recency.hit_get distinct hit).1
      refine ⟨represents', kept.trans spends.limited, ?_, ?_, ?_⟩
      · rw [lookups, spends.lookups]
      · rw [idle, tally, spends.runs]
        rfl
      · intro opened
        rw [key, idle, turnover, spends.results opened]
  | failed missed answered run =>
      obtain ⟨-, misses, -, -⟩ := Recency.missed_get distinct missed
      obtain ⟨-, state⟩ := recording_eq run
      refine ⟨represents', kept.trans spends.limited, ?_, ?_, ?_⟩
      · rw [lookups, spends.lookups]
      · rw [state, List.length_cons, spends.runs, misses]
      · intro opened
        rw [key, state, turnover]
        exact spends.results opened
  | @stored value missed answered run =>
      obtain ⟨-, misses, absent, -⟩ := Recency.missed_get distinct missed
      obtain ⟨same, -, misses'⟩ := Recency.set_frame _ stored (course.memo.key argument) value
      obtain ⟨-, state⟩ := recording_eq run
      refine ⟨represents', same.trans (kept.trans spends.limited), ?_, ?_, ?_⟩
      · rw [Recency.lookups_set, lookups, spends.lookups]
      · rw [state, List.length_cons, spends.runs, misses', misses]
      · intro opened
        have opened' : (recency.get asked (course.memo.key argument)).1.limits.capacity ≠ 0 := by
          rw [kept.trans spends.limited]
          exact opened
        rw [key, state, Recency.turnover_set_of_not_mem absent opened', turnover,
          Nat.add_right_comm, ← spends.results opened]
        rfl

theorem clear (spends : Spends limits calls lost course recency) :
    Spends limits calls (lost + course.memo.stats.size) course.clear recency.clear := by
  obtain ⟨chain, represents⟩ := spends.represents
  have size : course.memo.stats.size = recency.entries.length :=
    congrArg Cache.Stats.size represents.stats_eq
  constructor
  case represents => exact ⟨[], represents.clear⟩
  case limited => exact spends.limited
  case lookups => exact spends.lookups
  case runs => exact spends.runs
  case results =>
    intro opened
    have results := spends.results opened
    simp only [Course.clear, Memo.clear, size, Recency.turnover, Recency.clear,
      List.length_nil] at results ⊢
    omega

theorem after (spends : Spends limits calls lost course recency) (uses : List (Use α)) :
    ∃ next, Spends limits (calls + (uses.filterMap Use.argument?).length)
      (lost + course.cleared (recording function) uses)
      (course.after (recording function) uses) next := by
  induction uses generalizing course recency calls lost with
  | nil => exact ⟨recency, spends⟩
  | cons use rest ih =>
      cases use with
      | call asked stored argument =>
          obtain ⟨next, called⟩ := spends.call function asked stored argument
          obtain ⟨last, done⟩ := ih called
          refine ⟨last, ?_⟩
          rw [Nat.add_right_comm] at done
          exact done
      | clear =>
          obtain ⟨last, done⟩ := ih spends.clear
          refine ⟨last, ?_⟩
          rw [Nat.add_assoc] at done
          exact done

end Spends

structure Complete (limits : Cache.Limits) (names : List String)
    (course : Course (σ × List (Run α ε β)) α ε β) (recency : Recency β) : Prop where
  represents : ∃ chain, Represents course.memo.cache chain recency
  limited : recency.limits = limits
  known : recency.keys ⊆ names
  computed : (successes course.memo.key course.state.2).Perm recency.keys

theorem keys_set_of_room {names : List String} (distinct : recency.keys.Nodup)
    (bounded : recency.entries.length ≤ recency.limits.capacity) (known : recency.keys ⊆ names)
    (room : names.length ≤ recency.limits.capacity) {key : String} (used : key ∈ names)
    (absent : key ∉ recency.keys) (now : Nat) (value : β) :
    (recency.set now key value).keys = key :: recency.keys := by
  have apart : (key :: recency.keys).Nodup := List.nodup_cons.mpr ⟨absent, distinct⟩
  have among : key :: recency.keys ⊆ names := List.cons_subset.mpr ⟨used, known⟩
  have few := (List.subperm_of_subset apart among).length_le
  rw [recency.keys_set now key value bounded, Cache.promote_of_not_mem absent]
  exact List.take_of_length_le (Nat.le_trans few room)

namespace Complete

variable {limits : Cache.Limits} {names : List String}

theorem call (complete : Complete limits names course recency) (lasting : limits.lifetime = none)
    (room : names.length ≤ limits.capacity) (asked stored : Nat) {argument : α}
    (used : course.memo.key argument ∈ names) :
    ∃ next, Complete limits names
      (course.call (recording function) asked stored argument).1 next := by
  obtain ⟨chain, represents⟩ := complete.represents
  have limited := complete.limited
  have distinct := represents.distinct
  have computed := complete.computed
  obtain ⟨next, outcome, represents'⟩ :=
    outcome_call (recording function) represents asked stored argument
  have key : (course.call (recording function) asked stored argument).1.memo.key =
      course.memo.key := key_call (recording function) stored
  have kept := recency.limits_get asked (course.memo.key argument)
  generalize (course.call (recording function) asked stored argument).1 = after at *
  refine ⟨next, ?_⟩
  by_cases held : course.memo.key argument ∈ recency.keys
  · obtain ⟨entry, got⟩ := Recency.get_of_mem (by rw [limited, lasting]) held asked
    cases outcome with
    | found hit answered idle =>
        have same := (Recency.hit_get distinct hit).2
        refine ⟨represents', kept.trans limited, ?_, ?_⟩
        · exact fun name member => complete.known (same.subset member)
        · rw [key, idle]
          exact computed.trans same.symm
    | failed missed answered run => simp [got] at missed
    | stored missed answered run => simp [got] at missed
  · have got := Recency.get_of_not_mem held asked
    cases outcome with
    | found hit answered idle => simp [got] at hit
    | failed missed answered run =>
        obtain ⟨-, state⟩ := recording_eq run
        rw [got] at represents' ⊢
        refine ⟨represents', limited, complete.known, ?_⟩
        rw [key, state]
        exact computed
    | @stored value missed answered run =>
        obtain ⟨-, state⟩ := recording_eq run
        rw [got] at represents' ⊢
        let missed : Recency β := { recency with tally := recency.tally.miss }
        have distinct' : missed.keys.Nodup := distinct
        have keys := keys_set_of_room distinct' represents.bounded complete.known (limited ▸ room)
          used held stored value
        obtain ⟨same, -, -⟩ := missed.set_frame stored (course.memo.key argument) value
        refine ⟨represents', same.trans limited, ?_, ?_⟩
        · rw [keys]
          exact List.cons_subset.mpr ⟨used, complete.known⟩
        · rw [key, state, keys]
          exact computed.cons _

theorem after (complete : Complete limits names course recency)
    (lasting : limits.lifetime = none) (room : names.length ≤ limits.capacity)
    (uses : List (Use α)) (uncleared : Use.clear ∉ uses)
    (used : ∀ argument ∈ uses.filterMap Use.argument?, course.memo.key argument ∈ names) :
    ∃ next, Complete limits names (course.after (recording function) uses) next := by
  induction uses generalizing course recency with
  | nil => exact ⟨recency, complete⟩
  | cons use rest ih =>
      obtain ⟨unlike, later⟩ := List.ne_and_not_mem_of_not_mem_cons uncleared
      cases use with
      | call asked stored argument =>
          obtain ⟨next, called⟩ := complete.call function lasting room asked stored
            (used argument (by simp [Use.argument?]))
          refine ih called later ?_
          intro other member
          rw [use, key_call]
          exact used other (List.mem_cons_of_mem argument member)
      | clear => exact absurd rfl unlike

end Complete

end

def forget (course : Course (σ × List (Run α ε β)) α ε β) : Course σ α ε β :=
  ⟨course.memo, course.state.1, course.history⟩

theorem forget_call (course : Course (σ × List (Run α ε β)) α ε β)
    (function : α → σ → Except ε β × σ) (asked stored : Nat) (argument : α) :
    (course.call (recording function) asked stored argument).1.forget =
      (course.forget.call function asked stored argument).1 := by
  have same : (course.forget.memo.cache.get asked (course.forget.memo.key argument)).2 =
      (course.memo.cache.get asked (course.memo.key argument)).2 := rfl
  cases found : (course.memo.cache.get asked (course.memo.key argument)).2 with
  | some value =>
      rw [call_of_found (recording function) found, call_of_found function (same.trans found)]
      rfl
  | none =>
      rcases run : function argument course.forget.state with ⟨result, state⟩
      have noted : recording function argument course.state =
          (result, state, ⟨argument, result⟩ :: course.state.2) := by
        rw [recording]
        exact congrArg (fun given => (given.1, given.2, ⟨argument, given.1⟩ :: course.state.2)) run
      rw [call_of_missing found noted, call_of_missing (same.trans found) run]
      rfl

theorem forget_after (function : α → σ → Except ε β × σ) (uses : List (Use α))
    (course : Course (σ × List (Run α ε β)) α ε β) :
    (course.after (recording function) uses).forget = course.forget.after function uses := by
  induction uses generalizing course with
  | nil => rfl
  | cons use rest ih =>
      refine (ih (course.use (recording function) use)).trans ?_
      cases use with
      | call asked stored argument =>
          exact congrArg (after function · rest) (course.forget_call function asked stored argument)
      | clear => rfl

/-- What a run of calls and clears has cost. Every call is a hit or a miss, and the function has run
once for each miss. Where there is room for at least one result, each run that gave a result brought
in an entry that is still there, was driven out, grew old or was cleared; and where every key can be
kept, none was computed twice. -/
structure Economical (key : α → String) (function : α → σ → Except ε β × σ)
    (limits : Cache.Limits) (uses : List (Use α)) (cleared : Nat)
    (course : Course (σ × List (Run α ε β)) α ε β) : Prop where
  lookups : course.memo.stats.tally.hits + course.memo.stats.tally.misses =
    (uses.filterMap Use.argument?).length
  runs : course.state.2.length = course.memo.stats.tally.misses
  calls : ∀ asked stored argument, Frugal function course asked argument
    (course.call (recording function) asked stored argument).1
    (course.call (recording function) asked stored argument).2
  results : 1 ≤ limits.capacity → (successes key course.state.2).length =
    course.memo.stats.size + course.memo.stats.tally.evictions +
      course.memo.stats.tally.expirations + cleared
  once : limits.lifetime = none → Use.clear ∉ uses →
    ((uses.filterMap Use.argument?).map key).dedup.length ≤ limits.capacity →
      (successes key course.state.2).Nodup

/-- Every run of calls and clears from a new memory is economical, whatever the function gives, the
limits are and the clock shows. -/
theorem economical_after (key : α → String) (compute : α → Except ε β)
    (function : α → σ → Except ε β × σ) (state : σ) (limits : Cache.Limits)
    (uses : List (Use α)) :
    let start : Course (σ × List (Run α ε β)) α ε β :=
      ⟨⟨key, compute, .new limits⟩, (state, []), []⟩
    (start.after (recording function) uses).forget =
        after function ⟨⟨key, compute, .new limits⟩, state, []⟩ uses ∧
      Economical key function limits uses (start.cleared (recording function) uses)
        (start.after (recording function) uses) := by
  intro start
  refine ⟨forget_after function uses start, ?_⟩
  have represents : ∃ chain, Represents start.memo.cache chain (.new limits) :=
    ⟨[], Cache.new_represents limits⟩
  have begun : Spends limits 0 0 start (.new limits) := ⟨represents, rfl, rfl, rfl, fun _ => rfl⟩
  obtain ⟨recency, spends⟩ := begun.after function uses
  rw [Nat.zero_add, Nat.zero_add] at spends
  obtain ⟨chain, represents'⟩ := spends.represents
  have kept : (start.after (recording function) uses).memo.key = key := key_after _ uses
  have stats : (start.after (recording function) uses).memo.stats = recency.stats :=
    represents'.stats_eq
  constructor
  case lookups =>
    rw [stats]
    exact spends.lookups
  case runs =>
    rw [stats]
    exact spends.runs
  case calls => exact frugal_call function spends.represents
  case results =>
    intro opened
    have results := spends.results (Nat.ne_of_gt opened)
    rw [kept] at results
    rw [stats]
    exact results
  case once =>
    intro lasting uncleared room
    have empty : Complete limits ((uses.filterMap Use.argument?).map key).dedup start
        (.new limits) := ⟨represents, rfl, List.nil_subset _, List.Perm.refl _⟩
    obtain ⟨held, complete⟩ := empty.after function lasting room uses uncleared
      fun argument member => List.mem_dedup.mpr (List.mem_map_of_mem member)
    obtain ⟨order, represented⟩ := complete.represents
    have computed := complete.computed
    rw [kept] at computed
    exact computed.nodup_iff.mpr represented.distinct

end Course

end Reckoner.Memo
