import Reckoner.Proofs.Cache.Order
import Reckoner.Proofs.Memo.Calls

/-!
Memories of one function that differ in their room. If nothing in them grows old, the smaller one
always holds the keys that the larger one used last, whatever they are asked, so that it never finds
what the larger one has forgotten. A failure leaves no trace in either.
-/

namespace Reckoner.Memo

open Cache (Represents Recency promote promote_take)

variable {α ε β : Type}

inductive Use (α : Type) where
  | call (argument : α)
  | clear

def use (memo : Memo α ε β) : Nat × Use α → Memo α ε β
  | (now, .call argument) => (memo.call now argument).1
  | (_, .clear) => memo.clear

def afterUses (memo : Memo α ε β) (uses : List (Nat × Use α)) : Memo α ε β :=
  uses.foldl use memo

theorem call_of_found {memo : Memo α ε β} {now : Nat} {argument : α} {value : β}
    (found : (memo.cache.get now (memo.key argument)).2 = some value) :
    memo.call now argument =
      ({ memo with cache := (memo.cache.get now (memo.key argument)).1 }, ⟨.ok value, false⟩) := by
  simp only [call, callWith, lookup, found]

theorem call_of_missing {memo : Memo α ε β} {now : Nat} {argument : α}
    (missing : (memo.cache.get now (memo.key argument)).2 = none) :
    memo.call now argument =
      ({ memo with cache := (memo.cache.get now (memo.key argument)).1 }.store now argument
        (memo.compute argument), ⟨memo.compute argument, true⟩) := by
  simp only [call, callWith, lookup, missing]

theorem Honest.call {key : α → String} {compute : α → Except ε β} {memo : Memo α ε β}
    (honest : Honest key compute ⟨memo, 0, []⟩)
    (consistent : ∀ argument other, key argument = key other → compute argument = compute other)
    (now : Nat) (argument : α) : Honest key compute ⟨(memo.call now argument).1, 0, []⟩ := by
  have asked := honest.step consistent (.clock now)
  have returned := (asked.start argument).finish consistent 0
  have plain := Session.finish_start ⟨memo, now, []⟩ argument
  rw [List.length_nil] at plain
  rw [Session.step, plain] at returned
  exact { returned with answers := by simp }

theorem Honest.of_mem_keys {key : α → String} {compute : α → Except ε β}
    {session : Session α ε β} (honest : Honest key compute session) {name : String}
    (held : name ∈ session.memo.cache.keys) : ∃ value, Earned key compute name value := by
  obtain ⟨chain, recency, represents, earned⟩ := honest.earned
  rw [represents.keys_eq] at held
  obtain ⟨entry, member, rfl⟩ := List.mem_map.mp held
  exact ⟨entry.2.value, earned entry member⟩

structure Lasting (key : α → String) (compute : α → Except ε β) (capacity : Nat)
    (memo : Memo α ε β) (recency : Recency β) : Prop where
  keyed : memo.key = key
  computed : memo.compute = compute
  represents : ∃ chain, Represents memo.cache chain recency
  limits : recency.limits = ⟨capacity, none⟩

namespace Lasting

variable {key : α → String} {compute : α → Except ε β} {capacity : Nat} {memo : Memo α ε β}
  {recency : Recency β}

theorem keys_eq (lasting : Lasting key compute capacity memo recency) :
    memo.cache.keys = recency.keys := by
  obtain ⟨chain, represents⟩ := lasting.represents
  exact represents.keys_eq

theorem tally_eq (lasting : Lasting key compute capacity memo recency) :
    memo.stats.tally = recency.tally := by
  obtain ⟨chain, represents⟩ := lasting.represents
  exact represents.tally.symm

theorem bounded (lasting : Lasting key compute capacity memo recency) :
    recency.entries.length ≤ recency.limits.capacity := by
  obtain ⟨chain, represents⟩ := lasting.represents
  exact represents.bounded

theorem capacity_eq (lasting : Lasting key compute capacity memo recency) :
    recency.limits.capacity = capacity := by
  rw [lasting.limits]

theorem call_known (lasting : Lasting key compute capacity memo recency) {argument : α}
    (known : key argument ∈ recency.keys) (now : Nat) :
    (memo.call now argument).2.computed = false ∧
      ∃ next, Lasting key compute capacity (memo.call now argument).1 next ∧
        next.keys = promote capacity (key argument) recency.keys ∧
        next.tally = recency.tally.hit := by
  have bounded := lasting.bounded
  obtain ⟨rfl, rfl, ⟨chain, represents⟩, limits⟩ := lasting
  obtain ⟨⟨order, next⟩, answer⟩ := represents.get now (memo.key argument)
  obtain ⟨entry, got⟩ := Recency.get_of_mem (by rw [limits]) known now
  have found : (recency.get now (memo.key argument)).2 = some entry.value := by rw [got]
  have keys := Recency.keys_get_of_mem found bounded
  rw [limits] at keys
  rw [call_of_found (answer.trans found)]
  refine ⟨rfl, _, ⟨rfl, rfl, ⟨order, next⟩, ?_⟩, keys, ?_⟩
  · rw [got]
    exact limits
  · rw [got]

theorem call_unknown (lasting : Lasting key compute capacity memo recency) {argument : α}
    (unknown : key argument ∉ recency.keys) (now : Nat) :
    (memo.call now argument).2.computed = true ∧
      ∃ next, Lasting key compute capacity (memo.call now argument).1 next ∧
        (next.keys = match compute argument with
          | .ok _ => promote capacity (key argument) recency.keys
          | .error _ => recency.keys) ∧
        next.tally.hits = recency.tally.hits ∧ next.tally.misses = recency.tally.misses + 1 := by
  have bounded := lasting.bounded
  obtain ⟨rfl, rfl, ⟨chain, represents⟩, limits⟩ := lasting
  obtain ⟨⟨order, looked⟩, answer⟩ := represents.get now (memo.key argument)
  rw [Recency.get_of_not_mem unknown] at looked answer
  rw [call_of_missing answer]
  refine ⟨rfl, ?_⟩
  cases memo.compute argument with
  | error failure => exact ⟨_, ⟨rfl, rfl, ⟨order, looked⟩, limits⟩, rfl, rfl, rfl⟩
  | ok value =>
      let missed : Recency β := { recency with tally := recency.tally.miss }
      have capacity_eq : missed.limits.capacity = capacity := congrArg Cache.Limits.capacity limits
      obtain ⟨order, stored⟩ := looked.set now (memo.key argument) value
      obtain ⟨same, hits, misses⟩ := missed.set_frame now (memo.key argument) value
      have keys := missed.keys_set now (memo.key argument) value bounded
      rw [capacity_eq] at keys
      exact ⟨_, ⟨rfl, rfl, ⟨order, stored⟩, same.trans limits⟩, keys, hits, misses⟩

theorem clear (lasting : Lasting key compute capacity memo recency) :
    Lasting key compute capacity memo.clear recency.clear := by
  obtain ⟨chain, represents⟩ := lasting.represents
  exact ⟨lasting.keyed, lasting.computed, ⟨_, represents.clear⟩, lasting.limits⟩

end Lasting

structure Nested (key : α → String) (compute : α → Except ε β) (least most : Nat)
    (small large : Memo α ε β) (first all : Recency β) : Prop where
  lesser : Lasting key compute least small first
  greater : Lasting key compute most large all
  honest : Honest key compute ⟨large, 0, []⟩
  keys : first.keys = all.keys.take least
  hits : first.tally.hits ≤ all.tally.hits
  misses : all.tally.misses ≤ first.tally.misses

namespace Nested

variable {key : α → String} {compute : α → Except ε β} {least most : Nat}
  {small large : Memo α ε β} {first all : Recency β}

theorem mem_keys (nested : Nested key compute least most small large first all) {name : String}
    (held : name ∈ first.keys) : name ∈ all.keys := by
  rw [nested.keys] at held
  exact List.mem_of_mem_take held

theorem distinct (nested : Nested key compute least most small large first all) :
    all.keys.Nodup := by
  obtain ⟨chain, represents⟩ := nested.greater.represents
  exact represents.distinct

theorem call (nested : Nested key compute least most small large first all)
    (consistent : ∀ argument other, key argument = key other → compute argument = compute other)
    (order : least ≤ most) (argument : α) (now later : Nat) :
    ∃ first all, Nested key compute least most (small.call now argument).1
      (large.call later argument).1 first all := by
  have honest := nested.honest.call consistent later argument
  have promoted := promote_take order nested.distinct (key argument)
  rw [← nested.keys] at promoted
  by_cases known : key argument ∈ all.keys
  · obtain ⟨-, all', large', keys', tally'⟩ := nested.greater.call_known known later
    by_cases knownFirst : key argument ∈ first.keys
    · obtain ⟨-, first', small', keys, tally⟩ := nested.lesser.call_known knownFirst now
      refine ⟨first', all', small', large', honest, ?_, ?_, ?_⟩
      · rw [keys, keys', promoted]
      · rw [tally, tally']
        exact Nat.succ_le_succ nested.hits
      · rw [tally, tally']
        exact nested.misses
    · obtain ⟨-, first', small', keys, hits, misses⟩ := nested.lesser.call_unknown knownFirst now
      obtain ⟨value, -, given⟩ := nested.honest.of_mem_keys (nested.greater.keys_eq ▸ known)
      rw [given argument rfl] at keys
      refine ⟨first', all', small', large', honest, ?_, ?_, ?_⟩
      · rw [keys, keys', promoted]
      · rw [hits, tally']
        exact Nat.le_succ_of_le nested.hits
      · rw [misses, tally']
        exact Nat.le_succ_of_le nested.misses
  · have unknown : key argument ∉ first.keys := fun held => known (nested.mem_keys held)
    obtain ⟨-, all', large', keys', hits', misses'⟩ := nested.greater.call_unknown known later
    obtain ⟨-, first', small', keys, hits, misses⟩ := nested.lesser.call_unknown unknown now
    refine ⟨first', all', small', large', honest, ?_, ?_, ?_⟩
    · rw [keys, keys']
      cases compute argument with
      | ok value => exact promoted
      | error failure => exact nested.keys
    · rw [hits, hits']
      exact nested.hits
    · rw [misses, misses']
      exact Nat.succ_le_succ nested.misses

theorem clear (nested : Nested key compute least most small large first all)
    (consistent : ∀ argument other, key argument = key other → compute argument = compute other) :
    Nested key compute least most small.clear large.clear first.clear all.clear where
  lesser := nested.lesser.clear
  greater := nested.greater.clear
  honest := nested.honest.step consistent .clear
  keys := by simp [Recency.keys, Recency.clear]
  hits := nested.hits
  misses := nested.misses

theorem use (nested : Nested key compute least most small large first all)
    (consistent : ∀ argument other, key argument = key other → compute argument = compute other)
    (order : least ≤ most) (use : Use α) (now later : Nat) :
    ∃ first all, Nested key compute least most (small.use (now, use)) (large.use (later, use))
      first all := by
  cases use with
  | call argument => exact nested.call consistent order argument now later
  | clear => exact ⟨_, _, nested.clear consistent⟩

theorem afterUses (nested : Nested key compute least most small large first all)
    (consistent : ∀ argument other, key argument = key other → compute argument = compute other)
    (order : least ≤ most) (uses others : List (Nat × Use α))
    (same : uses.map (·.2) = others.map (·.2)) :
    ∃ first all, Nested key compute least most (small.afterUses uses) (large.afterUses others)
      first all := by
  induction uses generalizing small large first all others with
  | nil =>
      obtain rfl := List.map_eq_nil_iff.mp same.symm
      exact ⟨first, all, nested⟩
  | cons timed rest ih =>
      obtain ⟨⟨later, _⟩, rest', rfl, rfl, behind⟩ := List.map_eq_cons_iff.mp same.symm
      obtain ⟨first, all, next⟩ := nested.use consistent order timed.2 timed.1 later
      exact ih next rest' behind.symm

end Nested

theorem new_lasting (key : α → String) (compute : α → Except ε β) (capacity : Nat) :
    Lasting key compute capacity ⟨key, compute, .new ⟨capacity, none⟩⟩
      (Recency.new ⟨capacity, none⟩) :=
  ⟨rfl, rfl, ⟨[], Cache.new_represents _⟩, rfl⟩

theorem new_nested (key : α → String) (compute : α → Except ε β) (least most : Nat) :
    Nested key compute least most ⟨key, compute, .new ⟨least, none⟩⟩
      ⟨key, compute, .new ⟨most, none⟩⟩ (.new ⟨least, none⟩) (.new ⟨most, none⟩) where
  lesser := new_lasting key compute least
  greater := new_lasting key compute most
  honest := new_honest key compute _ 0
  keys := by simp [Recency.keys, Recency.new]
  hits := Nat.le_refl _
  misses := Nat.le_refl _

/-- Whether a memory with room for `least` keys is included in a larger one: it holds the keys that
the larger one used last, in their order, and finds nothing that the larger one does not find. -/
structure Included (least : Nat) (small large : Memo α ε β) : Prop where
  keys : small.cache.keys = large.cache.keys.take least
  found : ∀ now later argument, (small.call now argument).2.computed = false →
    (large.call later argument).2.computed = false
  hits : small.stats.tally.hits ≤ large.stats.tally.hits
  misses : large.stats.tally.misses ≤ small.stats.tally.misses

theorem Nested.included {key : α → String} {compute : α → Except ε β} {least most : Nat}
    {small large : Memo α ε β} {first all : Recency β}
    (nested : Nested key compute least most small large first all) :
    Included least small large where
  keys := by rw [nested.lesser.keys_eq, nested.greater.keys_eq, nested.keys]
  found := by
    intro now later argument hit
    have known : key argument ∈ first.keys := by
      by_contra unknown
      have miss := (nested.lesser.call_unknown unknown now).1
      simp [hit] at miss
    exact (nested.greater.call_known (nested.mem_keys known) later).1
  hits := by
    rw [nested.lesser.tally_eq, nested.greater.tally_eq]
    exact nested.hits
  misses := by
    rw [nested.lesser.tally_eq, nested.greater.tally_eq]
    exact nested.misses

/-- Two new memories of one function, in which nothing grows old, stay included the smaller in the
larger along every run of calls and clears, though they be used at different times. -/
theorem included_afterUses (key : α → String) (compute : α → Except ε β)
    (consistent : ∀ argument other, key argument = key other → compute argument = compute other)
    {least most : Nat} (order : least ≤ most) (uses others : List (Nat × Use α))
    (same : uses.map (·.2) = others.map (·.2)) :
    Included least (afterUses ⟨key, compute, .new ⟨least, none⟩⟩ uses)
      (afterUses ⟨key, compute, .new ⟨most, none⟩⟩ others) := by
  obtain ⟨first, all, nested⟩ :=
    (new_nested key compute least most).afterUses consistent order uses others same
  exact nested.included

theorem included_afterUses_one_in_two :
    let key (number : Nat) :=
      if number % 3 = 0 then "none" else if number % 3 = 1 then "one" else "two"
    let compute (number : Nat) : Except String Nat :=
      if number % 3 = 2 then .error "two" else .ok (number % 3)
    let uses := [(0, .call 3), (1, .call 4), (1, .call 6), (2, .call 5), (4, .clear), (4, .call 1)]
    let others :=
      [(9, .call 3), (8, .call 4), (7, .call 6), (7, .call 5), (7, .clear), (6, .call 1)]
    (∀ number other, key number = key other → compute number = compute other) ∧ 1 ≤ 2 ∧
      uses.map (·.2) = others.map (·.2) ∧
      Included 1 (afterUses ⟨key, compute, .new ⟨1, none⟩⟩ uses)
        (afterUses ⟨key, compute, .new ⟨2, none⟩⟩ others) := by
  intro key compute uses others
  have consistent : ∀ number other, key number = key other → compute number = compute other := by
    intro number other same
    have rest : number % 3 = other % 3 := by grind
    simp only [compute, rest]
  exact ⟨consistent, by decide, rfl,
    included_afterUses key compute consistent (by decide) uses others rfl⟩

end Reckoner.Memo
