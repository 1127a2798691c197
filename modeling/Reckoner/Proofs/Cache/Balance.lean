import Reckoner.Proofs.Cache.Invariant
import Reckoner.Proofs.Cache.Lookup

/-!
The accounts of a memory. What it counts itself is set against what can be seen of it from outside:
every look-up is a hit or a miss, and every key that has come in is still there, was driven out,
grew old, was deleted or was cleared.
-/

namespace Reckoner.Cache

variable {σ α : Type}

namespace Recency

variable {recency : Recency α}

def lookups (recency : Recency α) : Nat :=
  recency.tally.hits + recency.tally.misses

def turnover (recency : Recency α) : Nat :=
  recency.entries.length + recency.tally.evictions + recency.tally.expirations

theorem lookups_get (recency : Recency α) (now : Nat) (key : String) :
    (recency.get now key).1.lookups = recency.lookups + 1 := by
  have looked := recency.lookedUp_get now key
  generalize recency.get now key = result at looked
  cases looked with
  | missing absent => rfl
  | expired held old => rfl
  | found held fresh => exact Nat.add_right_comm _ _ _

theorem turnover_get (distinct : recency.keys.Nodup) (now : Nat) (key : String) :
    (recency.get now key).1.turnover = recency.turnover := by
  have looked := recency.lookedUp_get now key
  generalize recency.get now key = result at looked
  cases looked with
  | missing absent => rfl
  | expired held old =>
      have others := length_without distinct (mem_keys_iff.mpr ⟨_, held⟩)
      simp only [turnover, Tally.expire]
      omega
  | found held fresh =>
      have others := length_without distinct (mem_keys_iff.mpr ⟨_, held⟩)
      simp only [turnover, Tally.hit, List.length_cons]
      omega

theorem set_closed (closed : recency.limits.capacity = 0) (now : Nat) (key : String) (value : α) :
    recency.set now key value = recency := by
  rw [set, if_pos closed]

theorem lookups_set (recency : Recency α) (now : Nat) (key : String) (value : α) :
    (recency.set now key value).lookups = recency.lookups := by
  obtain ⟨-, hits, misses⟩ := recency.set_frame now key value
  rw [lookups, lookups, hits, misses]

theorem turnover_set_of_mem (distinct : recency.keys.Nodup) {key : String}
    (present : key ∈ recency.keys) (now : Nat) (value : α) :
    (recency.set now key value).turnover = recency.turnover := by
  have others := length_without distinct present
  obtain ⟨former, found⟩ := mem_keys_iff.mp present
  rw [set]
  split
  · rfl
  · simp only [found, turnover, List.length_cons]
    omega

theorem turnover_set_of_not_mem {key : String} (absent : key ∉ recency.keys)
    (opened : recency.limits.capacity ≠ 0) (now : Nat) (value : α) :
    (recency.set now key value).turnover = recency.turnover + 1 := by
  rw [set, if_neg opened]
  simp only [find?_eq_none_iff.mpr absent]
  split
  · simp only [turnover, Tally.evict, List.length_cons, List.length_dropLast]
    omega
  · simp only [turnover, List.length_cons]
    omega

theorem mem_keys_set (opened : recency.limits.capacity ≠ 0) (now : Nat) (key : String)
    (value : α) : key ∈ (recency.set now key value).keys :=
  mem_keys_iff.mpr ⟨_, find?_set_self opened now value⟩

end Recency

/-- What is seen of the uses of a memory: how often a key was looked up, how many keys came in, and
how many were deleted and cleared. -/
structure Ledger where
  lookups : Nat
  insertions : Nat
  deletions : Nat
  cleared : Nat

namespace Ledger

def empty : Ledger := ⟨0, 0, 0, 0⟩

def enter (ledger : Ledger) (before after : List String) : Action α → Answer α → Ledger
  | .get _, _ => { ledger with lookups := ledger.lookups + 1 }
  | .set key _, _ =>
      if key ∉ before ∧ key ∈ after then { ledger with insertions := ledger.insertions + 1 }
      else ledger
  | .delete _, .found (some _) => { ledger with deletions := ledger.deletions + 1 }
  | .clear, _ => { ledger with cleared := ledger.cleared + before.length }
  | _, _ => ledger

end Ledger

def Operations.audit (operations : Operations σ α) (ledger : Ledger) (session : Session σ) :
    List (Action α) → Ledger
  | [] => ledger
  | action :: rest =>
      let (next, answer) := operations.step session action
      let entered := ledger.enter (operations.keys session.memory) (operations.keys next.memory)
        action answer
      operations.audit entered next rest

structure Settles (ledger : Ledger) (recency : Recency α) : Prop where
  lookups : recency.lookups = ledger.lookups
  entries : ledger.insertions = recency.turnover + ledger.deletions + ledger.cleared

namespace Settles

variable {ledger : Ledger} {recency : Recency α}

theorem get (settles : Settles ledger recency) (distinct : recency.keys.Nodup) (now : Nat)
    (key : String) :
    Settles { ledger with lookups := ledger.lookups + 1 } (recency.get now key).1 := by
  constructor
  case lookups => rw [recency.lookups_get, settles.lookups]
  case entries => rw [Recency.turnover_get distinct, settles.entries]

theorem set (settles : Settles ledger recency) (distinct : recency.keys.Nodup) (now : Nat)
    (key : String) (value : α) :
    Settles (ledger.enter recency.keys (recency.set now key value).keys (.set key value) .done)
      (recency.set now key value) := by
  rw [Ledger.enter]
  by_cases closed : recency.limits.capacity = 0
  · rw [Recency.set_closed closed, if_neg (fun new => new.1 new.2)]
    exact settles
  · have stored := Recency.mem_keys_set closed now key value
    by_cases present : key ∈ recency.keys
    · rw [if_neg (fun new => new.1 present)]
      constructor
      case lookups => rw [recency.lookups_set, settles.lookups]
      case entries => rw [Recency.turnover_set_of_mem distinct present, settles.entries]
    · rw [if_pos ⟨present, stored⟩]
      constructor
      case lookups => rw [recency.lookups_set, settles.lookups]
      case entries =>
        rw [Recency.turnover_set_of_not_mem present closed]
        have entries := settles.entries
        dsimp only
        omega

theorem delete (settles : Settles ledger recency) (distinct : recency.keys.Nodup)
    (key : String) (after : List String) :
    Settles (ledger.enter recency.keys after (.delete key) (.found (recency.delete key).2))
      (recency.delete key).1 := by
  rw [Recency.delete]
  cases found : recency.find? key with
  | none => exact settles
  | some entry =>
      have others := Recency.length_without distinct (Recency.mem_keys_iff.mpr ⟨entry, found⟩)
      have entries := settles.entries
      constructor
      case lookups => exact settles.lookups
      case entries =>
        simp only [Ledger.enter, Recency.turnover] at entries ⊢
        omega

theorem clear (settles : Settles ledger recency) (after : List String) :
    Settles (ledger.enter recency.keys after (.clear : Action α) .done) recency.clear := by
  have entries := settles.entries
  constructor
  case lookups => exact settles.lookups
  case entries =>
    simp only [Ledger.enter, Recency.turnover, Recency.clear, recency.length_keys,
      List.length_nil] at entries ⊢
    omega

theorem step {session : Session (Recency α)} (settles : Settles ledger session.memory)
    (distinct : session.memory.keys.Nodup) (action : Action α) :
    let (next, answer) := (Recency.operations α).step session action
    Settles (ledger.enter session.memory.keys next.memory.keys action answer) next.memory := by
  cases action with
  | set key value => exact settles.set distinct session.now key value
  | get key => exact settles.get distinct session.now key
  | has key => exact settles
  | delete key => exact settles.delete distinct key _
  | clear => exact settles.clear _
  | clock now => exact settles

end Settles

theorem insertions_step {session : Session (Recency α)}
    (closed : session.memory.limits.capacity = 0) (ledger : Ledger) (action : Action α) :
    let (next, answer) := (Recency.operations α).step session action
    (ledger.enter session.memory.keys next.memory.keys action answer).insertions =
      ledger.insertions := by
  cases action with
  | set key value =>
      have same := Recency.set_closed closed session.now key value
      simp [Operations.step, Recency.operations, same, Ledger.enter]
  | delete key =>
      simp only [Operations.step, Recency.operations]
      cases (session.memory.delete key).2 <;> rfl
  | get key => rfl
  | has key => rfl
  | clear => rfl
  | clock now => rfl

/-- What the figures of a memory with some room say of its ledger. -/
structure Balanced (capacity : Nat) (stats : Stats) (ledger : Ledger) : Prop where
  lookups : stats.tally.hits + stats.tally.misses = ledger.lookups
  entries : ledger.insertions = stats.size + stats.tally.evictions + stats.tally.expirations +
    ledger.deletions + ledger.cleared
  closed : capacity = 0 → ledger.insertions = 0 ∧ stats.size + stats.tally.evictions +
    stats.tally.expirations + ledger.deletions + ledger.cleared = 0

structure Audited (limits : Limits) (session : Session (Cache α)) (ledger : Ledger) : Prop where
  settled : ∃ plain, InStep session plain ∧ Settles ledger plain.memory ∧
    plain.memory.limits = limits
  closed : limits.capacity = 0 → ledger.insertions = 0

namespace Audited

variable {limits : Limits} {session : Session (Cache α)} {ledger : Ledger}

theorem step (audited : Audited limits session ledger) (action : Action α) :
    let (next, answer) := (operations α).step session action
    Audited limits next
      (ledger.enter session.memory.keys next.memory.keys action answer) := by
  obtain ⟨plain, inStep, settles, same⟩ := audited.settled
  obtain ⟨next, answer⟩ := inStep.step action
  obtain ⟨⟨chain, represents⟩, -⟩ := inStep
  have before := represents.keys_eq
  obtain ⟨chain', represents'⟩ := next.1
  have after := represents'.keys_eq
  have entered := settles.step represents.distinct action
  have limits' := Recency.limits_step plain action
  dsimp only
  rw [before, after, answer]
  constructor
  case settled => exact ⟨_, next, entered, limits'.trans same⟩
  case closed =>
    intro closed
    have closed' : plain.memory.limits.capacity = 0 := by rw [same, closed]
    exact (insertions_step closed' ledger action).trans (audited.closed closed)

theorem run (audited : Audited limits session ledger) (actions : List (Action α)) :
    Audited limits ((operations α).after session actions)
      ((operations α).audit ledger session actions) := by
  induction actions generalizing session ledger with
  | nil => exact audited
  | cons action rest ih => exact ih (audited.step action)

theorem balanced (audited : Audited limits session ledger) :
    Balanced limits.capacity session.memory.stats ledger := by
  obtain ⟨plain, ⟨⟨chain, represents⟩, -⟩, settles, -⟩ := audited.settled
  have entries := settles.entries
  rw [represents.stats_eq]
  constructor
  case lookups => exact settles.lookups
  case entries => exact entries
  case closed =>
    intro closed
    have none := audited.closed closed
    exact ⟨none, entries.symm.trans none⟩

end Audited

theorem new_audited (limits : Limits) (now : Nat) :
    Audited limits ⟨(new limits : Cache α), now⟩ .empty := by
  constructor
  case settled =>
    exact ⟨⟨.new limits, now⟩, ⟨⟨[], new_represents limits⟩, rfl⟩, ⟨rfl, rfl⟩, rfl⟩
  case closed => exact fun _ => rfl

/-- After every run from a new cache, under any limits and any movement of the clock, its figures
balance with what was seen of its uses. -/
theorem balanced_after (limits : Limits) (now : Nat) (actions : List (Action α)) :
    Balanced limits.capacity ((operations α).after ⟨new limits, now⟩ actions).memory.stats
      ((operations α).audit .empty ⟨new limits, now⟩ actions) :=
  ((new_audited limits now).run actions).balanced

example : (Recency.operations Nat).audit .empty ⟨.new ⟨1, some 5⟩, 0⟩
    [.set "a" 1, .set "b" 2, .set "b" 3, .clock 9, .get "b", .set "c" 4, .delete "c"] =
      ⟨1, 3, 1, 0⟩ := rfl

end Reckoner.Cache
