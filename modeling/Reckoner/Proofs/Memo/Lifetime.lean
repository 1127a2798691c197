import Reckoner.Proofs.Cache.Order
import Reckoner.Proofs.Memo.Calls

/-!
Remembered functions whose results grow old. Nothing is assumed of the function: each of its runs
may change a state and depend on it. What a call finds was stored no longer ago than the lifetime
allows, however often it has been found since, and what it does not find has grown older than that,
was driven out or cleared, or was never stored.
-/

namespace Reckoner.Memo

open Cache (Represents Recency)

variable {σ α ε β : Type}

inductive Event (β : Type) where
  | stored (key : String) (time : Nat) (value : β)
  | evicted (key : String)
  | cleared

/-- The time and the value of the store that is the last event of a key in a history, latest event
first, unless there is none or the key was lost after it. -/
def lastStore? (key : String) : List (Event β) → Option (Nat × β)
  | [] => none
  | .stored name time value :: earlier =>
      if name = key then some (time, value) else lastStore? key earlier
  | .evicted name :: earlier => if name = key then none else lastStore? key earlier
  | .cleared :: _ => none

structure Course (σ α ε β : Type) where
  memo : Memo α ε β
  state : σ
  history : List (Event β)

/-- One use. A call reads the clock when it looks its key up, and if it stores a result, again. -/
inductive Course.Use (α : Type) where
  | call (asked stored : Nat) (argument : α)
  | clear

def Course.Use.readings : Course.Use α → List Nat
  | .call asked stored _ => [asked, stored]
  | .clear => []

def evictions (before after : Cache β) : List (Event β) :=
  (before.keys.filter fun name => name ∉ after.keys).map .evicted

def storeEvents (memo : Memo α ε β) (time : Nat) (argument : α) :
    Except ε β → List (Event β)
  | .ok value =>
      .stored (memo.key argument) time value ::
        evictions memo.cache (memo.store time argument (.ok value)).cache
  | .error _ => []

namespace Course

def call (course : Course σ α ε β) (function : α → σ → Except ε β × σ) (asked stored : Nat)
    (argument : α) : Course σ α ε β × Answer ε β :=
  match course.memo.lookup asked argument with
  | (looked, some value) => ({ course with memo := looked }, ⟨.ok value, false⟩)
  | (looked, none) =>
      let (result, state) := function argument course.state
      ({ memo := looked.store stored argument result
         state
         history := looked.storeEvents stored argument result ++ course.history }, ⟨result, true⟩)

def clear (course : Course σ α ε β) : Course σ α ε β :=
  { course with memo := course.memo.clear, history := .cleared :: course.history }

def use (function : α → σ → Except ε β × σ) (course : Course σ α ε β) :
    Use α → Course σ α ε β
  | .call asked stored argument => (course.call function asked stored argument).1
  | .clear => course.clear

def after (function : α → σ → Except ε β × σ) (course : Course σ α ε β) (uses : List (Use α)) :
    Course σ α ε β :=
  uses.foldl (use function) course

theorem call_eq (course : Course σ α ε β) (function : α → σ → Except ε β × σ) (now : Nat)
    (argument : α) :
    (course.call function now now argument).1.memo =
        (course.memo.callWith now argument fun _ => (function argument course.state).1).1 ∧
      (course.call function now now argument).2 =
        (course.memo.callWith now argument fun _ => (function argument course.state).1).2 := by
  rw [call, callWith]
  cases course.memo.lookup now argument with
  | mk looked found => cases found <;> exact ⟨rfl, rfl⟩

end Course

theorem lastStore?_evicted (key : String) (names : List String) (history : List (Event β)) :
    lastStore? key (names.map .evicted ++ history) =
      if key ∈ names then none else lastStore? key history := by
  induction names with
  | nil => simp
  | cons name rest ih =>
      by_cases same : name = key
      · simp [lastStore?, same]
      · simp [lastStore?, same, Ne.symm same, ih]

theorem lastStore?_evictions (key : String) (before after : Cache β)
    (history : List (Event β)) :
    lastStore? key (evictions before after ++ history) =
      if key ∈ before.keys ∧ key ∉ after.keys then none else lastStore? key history := by
  simp [evictions, lastStore?_evicted]

structure Tracks (capacity lifetime latest : Nat) (cache : Cache β) (history : List (Event β))
    (recency : Recency β) : Prop where
  represents : ∃ chain, Represents cache chain recency
  limits : recency.limits = ⟨capacity, some lifetime⟩
  held : ∀ key entry, recency.find? key = some entry →
    ∃ time, entry.stored = some time ∧ lastStore? key history = some (time, entry.value)
  lost : ∀ key time value, recency.find? key = none →
    lastStore? key history = some (time, value) → time + lifetime < latest

namespace Tracks

variable {capacity lifetime latest : Nat} {cache : Cache β} {history : List (Event β)}
  {recency : Recency β}

theorem mono (tracks : Tracks capacity lifetime latest cache history recency) {now : Nat}
    (later : latest ≤ now) : Tracks capacity lifetime now cache history recency :=
  { tracks with
    lost := fun key time value missing last =>
      Nat.lt_of_lt_of_le (tracks.lost key time value missing last) later }

theorem isExpired_iff (tracks : Tracks capacity lifetime latest cache history recency)
    {entry : Cache.Entry β} {time : Nat} (stored : entry.stored = some time) (now : Nat) :
    recency.limits.isExpired now entry = true ↔ time + lifetime < now := by
  rw [tracks.limits, Cache.Limits.isExpired, stored, decide_eq_true_iff]
  omega

theorem get_eq_some_iff (tracks : Tracks capacity lifetime latest cache history recency)
    {now : Nat} (later : latest ≤ now) (key : String) (value : β) :
    (cache.get now key).2 = some value ↔
      ∃ time, lastStore? key history = some (time, value) ∧ now ≤ time + lifetime := by
  obtain ⟨chain, represents⟩ := tracks.represents
  rw [(represents.get now key).2]
  cases found : recency.find? key with
  | none =>
      rw [Recency.get_missing found]
      constructor
      · intro none
        contradiction
      · rintro ⟨time, last, young⟩
        have old := tracks.lost key time value found last
        omega
  | some entry =>
      obtain ⟨time, stored, last⟩ := tracks.held key entry found
      have expiry := tracks.isExpired_iff stored now
      rw [last]
      cases expired : recency.limits.isExpired now entry with
      | true =>
          rw [Recency.get_expired found expired]
          have old := expiry.mp expired
          simp
          omega
      | false =>
          rw [Recency.get_fresh found expired]
          simp [expired] at expiry
          simp [expiry]

theorem get (tracks : Tracks capacity lifetime latest cache history recency) {now : Nat}
    (later : latest ≤ now) (key : String) :
    ∃ next, Tracks capacity lifetime now (cache.get now key).1 history next := by
  obtain ⟨chain, represents⟩ := tracks.represents
  obtain ⟨order, next⟩ := (represents.get now key).1
  cases found : recency.find? key with
  | none =>
      rw [Recency.get_missing found] at next
      refine ⟨_, ⟨_, next⟩, tracks.limits, tracks.held, ?_⟩
      intro other time value missing last
      exact Nat.lt_of_lt_of_le (tracks.lost other time value missing last) later
  | some entry =>
      cases expired : recency.limits.isExpired now entry with
      | true =>
          rw [Recency.get_expired found expired] at next
          obtain ⟨stored, at_, last⟩ := tracks.held key entry found
          have old := (tracks.isExpired_iff at_ now).mp expired
          have kept (other : String) : (recency.without key).lookup other =
              if other = key then none else recency.find? other := recency.lookup_without key other
          refine ⟨_, ⟨_, next⟩, tracks.limits, ?_, ?_⟩
          · intro other entry held
            rw [Recency.find?, kept] at held
            split at held
            · contradiction
            · exact tracks.held other entry held
          · intro other time value missing before
            rw [Recency.find?, kept] at missing
            split at missing
            · rename_i same
              rw [same, last] at before
              cases before
              exact old
            · exact Nat.lt_of_lt_of_le (tracks.lost other time value missing before) later
      | false =>
          rw [Recency.get_fresh found expired] at next
          have kept := Recency.lookup_promoted found
          refine ⟨_, ⟨_, next⟩, tracks.limits, ?_, ?_⟩
          · intro other entry held
            exact tracks.held other entry ((kept other).symm.trans held)
          · intro other time value missing last
            have before := tracks.lost other time value ((kept other).symm.trans missing) last
            exact Nat.lt_of_lt_of_le before later

theorem find?_set (tracks : Tracks capacity lifetime latest cache history recency)
    (opened : 0 < capacity) (time : Nat) (key : String) (value : β) :
    (recency.set time key value).find? key = some ⟨value, some time⟩ := by
  have room : recency.limits.capacity ≠ 0 := by
    rw [tracks.limits]
    exact Nat.ne_of_gt opened
  rw [Recency.find?_set_self room, Cache.Limits.entry, tracks.limits]
  rfl

theorem set (tracks : Tracks capacity lifetime latest cache history recency)
    (opened : 0 < capacity) (time : Nat) (key : String) (value : β) :
    Tracks capacity lifetime latest (cache.set time key value)
      (.stored key time value :: evictions cache (cache.set time key value) ++ history)
      (recency.set time key value) := by
  obtain ⟨chain, represents⟩ := tracks.represents
  obtain ⟨order, next⟩ := represents.set time key value
  have own := tracks.find?_set opened time key value
  have same := (recency.set_frame time key value).1
  have known (name : String) : name ∈ cache.keys ↔ recency.find? name ≠ none := by
    rw [represents.keys_eq, ne_eq, Recency.find?_eq_none_iff, not_not]
  have kept (name : String) : name ∈ (cache.set time key value).keys ↔
      (recency.set time key value).find? name ≠ none := by
    rw [next.keys_eq, ne_eq, Recency.find?_eq_none_iff, not_not]
  refine ⟨⟨_, next⟩, same.trans tracks.limits, ?_, ?_⟩
  · intro name entry held
    rw [List.cons_append, lastStore?]
    by_cases stored : key = name
    · subst stored
      cases own.symm.trans held
      exact ⟨time, rfl, if_pos rfl⟩
    · have before := Recency.find?_of_find?_set (Ne.symm stored) held
      have stays : name ∈ (cache.set time key value).keys := by simp [kept, held]
      rw [if_neg stored, lastStore?_evictions, if_neg (fun driven => driven.2 stays)]
      exact tracks.held name entry before
  · intro name time' value' missing last
    have stored : key ≠ name := by
      rintro rfl
      simp [own] at missing
    rw [List.cons_append, lastStore?, if_neg stored, lastStore?_evictions] at last
    split at last
    · contradiction
    · rename_i stays
      have gone : name ∉ (cache.set time key value).keys := by simp [kept, missing]
      have before : recency.find? name = none := by
        by_contra held
        exact stays ⟨(known name).mpr held, gone⟩
      exact tracks.lost name time' value' before last

theorem clear (tracks : Tracks capacity lifetime latest cache history recency) :
    Tracks capacity lifetime latest cache.clear (.cleared :: history) recency.clear := by
  obtain ⟨chain, represents⟩ := tracks.represents
  refine ⟨⟨_, represents.clear⟩, tracks.limits, ?_, ?_⟩
  · intro name entry held
    simp [Recency.find?, Recency.clear] at held
  · intro name time value missing last
    simp [lastStore?] at last

theorem exists_content (tracks : Tracks capacity lifetime latest cache history recency)
    {key : String} {entry : Cache.Entry β} (found : recency.find? key = some entry) :
    ∃ slot, cache.content? slot = some (key, entry) := by
  obtain ⟨chain, represents⟩ := tracks.represents
  have member := Recency.mem_of_find? found
  rw [represents.entries] at member
  obtain ⟨slot, -, held⟩ := List.mem_filterMap.mp member
  exact ⟨slot, held⟩

end Tracks

theorem new_tracks (capacity lifetime : Nat) :
    Tracks capacity lifetime 0 (.new ⟨capacity, some lifetime⟩ : Cache β) []
      (.new ⟨capacity, some lifetime⟩) := by
  refine ⟨⟨_, Cache.new_represents _⟩, rfl, ?_, ?_⟩
  · intro name entry held
    simp [Recency.find?, Recency.new] at held
  · intro name time value missing last
    simp [lastStore?] at last

namespace Course

variable {capacity lifetime latest : Nat} {course : Course σ α ε β} {recency : Recency β}
  (function : α → σ → Except ε β × σ) {asked : Nat} {argument : α}

theorem call_of_found {value : β}
    (found : (course.memo.cache.get asked (course.memo.key argument)).2 = some value)
    (stored : Nat) : course.call function asked stored argument =
      ({ course with memo := (course.memo.lookup asked argument).1 }, ⟨.ok value, false⟩) := by
  simp only [call, lookup, found]

theorem call_of_missing {function : α → σ → Except ε β × σ}
    (missing : (course.memo.cache.get asked (course.memo.key argument)).2 = none)
    {result : Except ε β} {state : σ} (run : function argument course.state = (result, state))
    (stored : Nat) : course.call function asked stored argument =
      ({ memo := (course.memo.lookup asked argument).1.store stored argument result
         state
         history := (course.memo.lookup asked argument).1.storeEvents stored argument result ++
           course.history }, ⟨result, true⟩) := by
  simp only [call, lookup, missing, run]

theorem key_call (stored : Nat) :
    (course.call function asked stored argument).1.memo.key = course.memo.key := by
  cases found : (course.memo.cache.get asked (course.memo.key argument)).2 with
  | some value => rw [call_of_found function found, lookup]
  | none => rw [call_of_missing found rfl, (store_frame _ _ _ _).1, lookup]

theorem key_after (uses : List (Use α)) :
    (course.after function uses).memo.key = course.memo.key := by
  induction uses generalizing course with
  | nil => rfl
  | cons use rest ih =>
      refine ih.trans ?_
      cases use with
      | call asked stored argument => exact key_call function stored
      | clear => rfl

theorem tracks_call (opened : 0 < capacity)
    (tracks : Tracks capacity lifetime latest course.memo.cache course.history recency)
    (later : latest ≤ asked) (stored : Nat) :
    ∃ next, Tracks capacity lifetime asked
      (course.call function asked stored argument).1.memo.cache
      (course.call function asked stored argument).1.history next := by
  obtain ⟨looked, tracked⟩ := tracks.get later (course.memo.key argument)
  cases found : (course.memo.cache.get asked (course.memo.key argument)).2 with
  | some value =>
      rw [call_of_found function found]
      exact ⟨looked, tracked⟩
  | none =>
      rcases run : function argument course.state with ⟨result, state⟩
      rw [call_of_missing found run]
      cases result with
      | ok value => exact ⟨_, tracked.set opened stored (course.memo.key argument) value⟩
      | error failure => exact ⟨looked, tracked⟩

theorem tracks_after (opened : 0 < capacity)
    (tracks : Tracks capacity lifetime latest course.memo.cache course.history recency)
    (uses : List (Use α))
    (forward : (latest :: (uses.flatMap Use.readings ++ [asked])).Pairwise (· ≤ ·)) :
    ∃ next, Tracks capacity lifetime asked (course.after function uses).memo.cache
      (course.after function uses).history next := by
  induction uses generalizing latest course recency with
  | nil =>
      obtain ⟨later, -⟩ := List.pairwise_cons.mp forward
      exact ⟨recency, tracks.mono (later asked (by simp))⟩
  | cons use rest ih =>
      cases use with
      | call now stored argument =>
          obtain ⟨later, forward⟩ := List.pairwise_cons.mp forward
          obtain ⟨next, tracked⟩ := tracks_call function opened tracks
            (later now (by simp [Use.readings])) stored
          refine ih tracked (forward.sublist ?_)
          simp [Use.readings]
      | clear => exact ih tracks.clear forward

/-- Whether a call at a time is answered as the lifetime of results says. The memory answers if and
only if the last event of the key is a store no longer ago than the lifetime, and then with what was
stored. Otherwise the function is run once, and what it gives is the answer and, if it is no
failure, is stored with the time of the store. -/
structure Timely (key : α → String) (function : α → σ → Except ε β × σ)
    (lifetime asked stored : Nat) (argument : α) (course : Course σ α ε β) : Prop where
  found_iff : (course.call function asked stored argument).2.computed = false ↔
    ∃ time value, lastStore? (key argument) course.history = some (time, value) ∧
      asked ≤ time + lifetime
  found : ∀ time value, lastStore? (key argument) course.history = some (time, value) →
    asked ≤ time + lifetime →
      (course.call function asked stored argument).2.result = .ok value ∧
        (course.call function asked stored argument).1.state = course.state
  computed : (course.call function asked stored argument).2.computed = true →
    (course.call function asked stored argument).2.result = (function argument course.state).1 ∧
      (course.call function asked stored argument).1.state = (function argument course.state).2
  kept : (course.call function asked stored argument).2.computed = true → ∀ value,
    (function argument course.state).1 = .ok value →
      ∃ slot, (course.call function asked stored argument).1.memo.cache.content? slot =
        some (key argument, ⟨value, some stored⟩)

theorem timely_of_tracks (opened : 0 < capacity)
    (tracks : Tracks capacity lifetime asked course.memo.cache course.history recency)
    (stored : Nat) (argument : α) :
    Timely course.memo.key function lifetime asked stored argument course := by
  have answers := tracks.get_eq_some_iff (Nat.le_refl asked) (course.memo.key argument)
  cases found : (course.memo.cache.get asked (course.memo.key argument)).2 with
  | some value =>
      obtain ⟨time, last, young⟩ := (answers value).mp found
      have called := call_of_found function found stored
      constructor
      case found_iff =>
        rw [called]
        exact iff_of_true rfl ⟨time, value, last, young⟩
      case found =>
        intro time' value' last' _
        rw [last] at last'
        cases last'
        rw [called]
        exact ⟨rfl, rfl⟩
      all_goals
        rw [called]
        intro computed
        contradiction
  | none =>
      rcases run : function argument course.state with ⟨result, state⟩
      have called := call_of_missing found run stored
      have unanswered (time : Nat) (value : β)
          (last : lastStore? (course.memo.key argument) course.history = some (time, value)) :
          ¬asked ≤ time + lifetime := by
        intro young
        have answer := (answers value).mpr ⟨time, last, young⟩
        simp [found] at answer
      constructor
      case found_iff =>
        rw [called]
        refine iff_of_false (by simp) ?_
        rintro ⟨time, value, last, young⟩
        exact unanswered time value last young
      case found =>
        intro time value last young
        exact absurd young (unanswered time value last)
      case computed =>
        rw [called, run]
        intro _
        exact ⟨rfl, rfl⟩
      case kept =>
        rw [called, run]
        rintro - value rfl
        obtain ⟨looked, tracked⟩ := tracks.get (Nat.le_refl asked) (course.memo.key argument)
        have own := tracked.find?_set opened stored (course.memo.key argument) value
        exact (tracked.set opened stored (course.memo.key argument) value).exists_content own

/-- Along every run of calls and clears from a new memory with room for at least one result, on a
clock that never goes backwards, each call is answered as the lifetime says. -/
theorem timely_after (key : α → String) (compute : α → Except ε β)
    (function : α → σ → Except ε β × σ) (state : σ) {capacity : Nat} (opened : 0 < capacity)
    (lifetime : Nat) (uses : List (Use α)) (asked stored : Nat) (argument : α)
    (forward : (uses.flatMap Use.readings ++ [asked, stored]).Pairwise (· ≤ ·)) :
    Timely key function lifetime asked stored argument
      (after function ⟨⟨key, compute, .new ⟨capacity, some lifetime⟩⟩, state, []⟩ uses) := by
  have readings : (0 :: (uses.flatMap Use.readings ++ [asked])).Pairwise (· ≤ ·) := by
    refine List.pairwise_cons.mpr ⟨fun _ _ => Nat.zero_le _, forward.sublist ?_⟩
    simp
  let course : Course σ α ε β := ⟨⟨key, compute, .new ⟨capacity, some lifetime⟩⟩, state, []⟩
  have start : Tracks capacity lifetime 0 course.memo.cache course.history _ :=
    new_tracks capacity lifetime
  obtain ⟨recency, tracks⟩ := tracks_after function opened start uses readings
  have timely := timely_of_tracks function opened tracks stored argument
  rwa [key_after] at timely

theorem timely_after_turnover :
    let function (number runs : Nat) : Except String Nat × Nat :=
      (if number = 7 then .error "seven" else .ok (number + 100 * runs), runs + 1)
    let uses := [.call 0 0 1, .call 5 6 2, .call 10 10 1, .call 11 11 1, .call 12 14 7, .clear,
      .call 14 15 3, .call 15 15 4, .call 17 17 5]
    0 < 2 ∧ (uses.flatMap Use.readings ++ [25, 25]).Pairwise (· ≤ ·) ∧
      Timely toString function 10 25 25 3
        (after function ⟨⟨toString, .ok, .new ⟨2, some 10⟩⟩, 0, []⟩ uses) := by
  intro function uses
  have opened : 0 < 2 := by decide
  have forward : (uses.flatMap Use.readings ++ [25, 25]).Pairwise (· ≤ ·) := by decide
  exact ⟨opened, forward, timely_after toString .ok function 0 opened 10 uses 25 25 3 forward⟩

end Course

end Reckoner.Memo
