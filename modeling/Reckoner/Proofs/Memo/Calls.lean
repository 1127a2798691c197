import Reckoner.Memo
import Reckoner.Proofs.Cache.Contents
import Reckoner.Proofs.Cache.Refinement

/-!
Calls of a remembered function that run side by side. A call looks its key up in one step. If it
finds nothing it runs the function without holding the cache, and a later step stores the result.
Steps of other calls, clears and movements of the clock may come in between. Whatever comes, a call
returns with what the function gives, since the cache never holds anything else.
-/

namespace Reckoner.Memo

variable {α ε β : Type}

theorem store_frame (memo : Memo α ε β) (now : Nat) (argument : α) (result : Except ε β) :
    (memo.store now argument result).key = memo.key ∧
      (memo.store now argument result).compute = memo.compute := by
  cases result <;> exact ⟨rfl, rfl⟩

structure Call (α ε β : Type) where
  argument : α
  answer : Option (Except ε β)

structure Session (α ε β : Type) where
  memo : Memo α ε β
  now : Nat
  calls : List (Call α ε β)

inductive Action (α : Type) where
  | start (argument : α)
  | finish (index : Nat)
  | clear
  | clock (now : Nat)

namespace Session

def start (session : Session α ε β) (argument : α) : Session α ε β :=
  let (memo, found) := session.memo.lookup session.now argument
  { session with memo, calls := session.calls ++ [⟨argument, found.map .ok⟩] }

def finish (session : Session α ε β) (index : Nat) : Session α ε β :=
  match session.calls[index]? with
  | some ⟨argument, none⟩ =>
      let result := session.memo.compute argument
      { session with
        memo := session.memo.store session.now argument result
        calls := session.calls.set index ⟨argument, some result⟩ }
  | _ => session

def step (session : Session α ε β) : Action α → Session α ε β
  | .start argument => session.start argument
  | .finish index => session.finish index
  | .clear => { session with memo := session.memo.clear }
  | .clock now => { session with now }

def after (session : Session α ε β) (actions : List (Action α)) : Session α ε β :=
  actions.foldl step session

theorem start_eq (session : Session α ε β) (argument : α) :
    session.start argument =
      { session with
        memo := (session.memo.lookup session.now argument).1
        calls := session.calls ++
          [⟨argument, (session.memo.lookup session.now argument).2.map .ok⟩] } :=
  rfl

theorem finish_running {session : Session α ε β} {index : Nat} {argument : α}
    (running : session.calls[index]? = some ⟨argument, none⟩) :
    session.finish index =
      { session with
        memo := session.memo.store session.now argument (session.memo.compute argument)
        calls := session.calls.set index ⟨argument, some (session.memo.compute argument)⟩ } := by
  simp only [finish, running]

theorem finish_returned {session : Session α ε β} {index : Nat} {argument : α}
    {answer : Except ε β} (returned : session.calls[index]? = some ⟨argument, some answer⟩) :
    session.finish index = session := by
  simp only [finish, returned]

theorem finish_missing {session : Session α ε β} {index : Nat}
    (missing : session.calls[index]? = none) : session.finish index = session := by
  simp only [finish, missing]

theorem finish_start (session : Session α ε β) (argument : α) :
    (session.start argument).finish session.calls.length =
      { session with
        memo := (session.memo.call session.now argument).1
        calls := session.calls ++
          [⟨argument, some (session.memo.call session.now argument).2.result⟩] } := by
  have last (answer : Option (Except ε β)) :
      (session.calls ++ [⟨argument, answer⟩])[session.calls.length]? = some ⟨argument, answer⟩ := by
    simp
  rw [call, callWith]
  cases looked : session.memo.lookup session.now argument with
  | mk memo found =>
      have started := session.start_eq argument
      rw [looked] at started
      cases found with
      | some value =>
          rw [started]
          exact finish_returned (last _)
      | none =>
          have same : memo.compute = session.memo.compute :=
            congrArg (fun pair => pair.1.compute) looked.symm
          rw [started, finish_running (last _), same]
          simp

end Session

/-- Whether a value may stand under a key: the function gives it for every argument with that key,
of which there is one. -/
def Earned (key : α → String) (compute : α → Except ε β) (name : String) (value : β) : Prop :=
  (∃ argument, key argument = name) ∧ ∀ argument, key argument = name → compute argument = .ok value

structure Honest (key : α → String) (compute : α → Except ε β) (session : Session α ε β) :
    Prop where
  keyed : session.memo.key = key
  computed : session.memo.compute = compute
  earned : ∃ chain recency, Cache.Represents session.memo.cache chain recency ∧
    ∀ held ∈ recency.entries, Earned key compute held.1 held.2.value
  answers : ∀ call ∈ session.calls, ∀ answer, call.answer = some answer →
    answer = compute call.argument

namespace Honest

variable {key : α → String} {compute : α → Except ε β} {session : Session α ε β}

theorem start (honest : Honest key compute session) (argument : α) :
    Honest key compute (session.start argument) := by
  obtain ⟨chain, recency, represents, earned⟩ := honest.earned
  obtain ⟨⟨order, next⟩, found⟩ := represents.get session.now (session.memo.key argument)
  rw [session.start_eq]
  constructor
  case keyed => exact honest.keyed
  case computed => exact honest.computed
  case earned =>
    refine ⟨order, _, next, ?_⟩
    intro held member
    exact earned held (Cache.Recency.mem_of_mem_get member)
  case answers =>
    intro call member answer returned
    rcases List.mem_append.mp member with old | new
    · exact honest.answers call old answer returned
    · rw [List.mem_singleton.mp new] at returned ⊢
      obtain ⟨value, answered, rfl⟩ := Option.map_eq_some_iff.mp returned
      obtain ⟨entry, held, rfl⟩ := Cache.Recency.mem_of_get (found.symm.trans answered)
      exact ((earned _ held).2 argument (congrFun honest.keyed argument).symm).symm

theorem store (honest : Honest key compute session)
    (consistent : ∀ argument other, key argument = key other → compute argument = compute other)
    (argument : α) :
    ∃ chain recency,
      Cache.Represents (session.memo.store session.now argument (compute argument)).cache chain
        recency ∧
      ∀ held ∈ recency.entries, Earned key compute held.1 held.2.value := by
  obtain ⟨chain, recency, represents, earned⟩ := honest.earned
  cases given : compute argument with
  | error failure => exact ⟨chain, recency, represents, earned⟩
  | ok value =>
      simp only [Memo.store, honest.keyed]
      obtain ⟨order, next⟩ := represents.set session.now (key argument) value
      refine ⟨order, _, next, ?_⟩
      intro held member
      rcases Cache.Recency.mem_of_mem_set member with new | old
      · rw [new]
        refine ⟨⟨argument, rfl⟩, ?_⟩
        intro other same
        rw [consistent other argument same, given]
        rfl
      · exact earned held old

theorem finish (honest : Honest key compute session)
    (consistent : ∀ argument other, key argument = key other → compute argument = compute other)
    (index : Nat) : Honest key compute (session.finish index) := by
  cases found : session.calls[index]? with
  | none => exact (Session.finish_missing found).symm ▸ honest
  | some call =>
      obtain ⟨argument, answer⟩ := call
      cases answer with
      | some answer => exact (Session.finish_returned found).symm ▸ honest
      | none =>
          rw [Session.finish_running found, honest.computed]
          constructor
          case keyed => exact (store_frame _ _ _ _).1.trans honest.keyed
          case computed => exact (store_frame _ _ _ _).2.trans honest.computed
          -- Whatever has become of the key since the call missed, its value may stand there.
          case earned => exact honest.store consistent argument
          case answers =>
            intro call member answer returned
            rcases List.mem_or_eq_of_mem_set member with old | new
            · exact honest.answers call old answer returned
            · rw [new] at returned ⊢
              exact (Option.some.inj returned).symm

theorem step (honest : Honest key compute session)
    (consistent : ∀ argument other, key argument = key other → compute argument = compute other)
    (action : Action α) : Honest key compute (session.step action) := by
  cases action with
  | start argument => exact honest.start argument
  | finish index => exact honest.finish consistent index
  | clear =>
      obtain ⟨chain, recency, represents, -⟩ := honest.earned
      exact { honest with earned := ⟨[], _, represents.clear, by simp [Cache.Recency.clear]⟩ }
  | clock now => exact { honest with }

theorem after (honest : Honest key compute session)
    (consistent : ∀ argument other, key argument = key other → compute argument = compute other)
    (actions : List (Action α)) : Honest key compute (session.after actions) := by
  induction actions generalizing session with
  | nil => exact honest
  | cons action rest ih => exact ih (honest.step consistent action)

end Honest

theorem new_honest (key : α → String) (compute : α → Except ε β) (limits : Cache.Limits)
    (now : Nat) : Honest key compute ⟨⟨key, compute, .new limits⟩, now, []⟩ := by
  constructor
  case keyed => rfl
  case computed => rfl
  case earned => exact ⟨[], _, Cache.new_represents limits, by simp [Cache.Recency.new]⟩
  case answers => simp

/-- Whether calls that run side by side cannot tell the remembered function from the function. -/
structure Transparent (key : α → String) (compute : α → Except ε β) (session : Session α ε β) :
    Prop where
  answers : ∀ call ∈ session.calls, ∀ answer, call.answer = some answer →
    answer = compute call.argument
  returns : ∀ index call, session.calls[index]? = some call →
    (session.finish index).calls[index]? = some ⟨call.argument, some (compute call.argument)⟩
  call : ∀ argument, (session.memo.call session.now argument).2.result = compute argument
  remembered : ∀ slot name entry, session.memo.cache.content? slot = some (name, entry) →
    Earned key compute name entry.value

theorem Honest.transparent {key : α → String} {compute : α → Except ε β}
    {session : Session α ε β} (honest : Honest key compute session)
    (consistent : ∀ argument other, key argument = key other → compute argument = compute other) :
    Transparent key compute session := by
  constructor
  case answers => exact honest.answers
  case returns =>
    intro index call found
    obtain ⟨argument, answer⟩ := call
    cases answer with
    | none =>
        have within := (List.getElem?_eq_some_iff.mp found).1
        rw [Session.finish_running found, honest.computed]
        simp [within]
    | some answer =>
        have given := honest.answers _ (List.mem_of_getElem? found) answer rfl
        rw [Session.finish_returned found, found, given]
  case call =>
    intro argument
    have both := (honest.start argument).finish consistent session.calls.length
    rw [session.finish_start] at both
    exact both.answers _ (List.mem_append_right _ (List.mem_singleton.mpr rfl)) _ rfl
  case remembered =>
    intro slot name entry held
    obtain ⟨chain, recency, represents, earned⟩ := honest.earned
    have live := (represents.sound.live slot).mpr ⟨_, held⟩
    apply earned (name, entry)
    rw [represents.entries]
    exact List.mem_filterMap.mpr ⟨slot, live, held⟩

/-- Whatever steps of calls, clears and movements of the clock follow one another from a new cache,
every call returns with what the function gives, and every entry holds what the function gives
without failure. -/
theorem transparent_after (key : α → String) (compute : α → Except ε β)
    (consistent : ∀ argument other, key argument = key other → compute argument = compute other)
    (limits : Cache.Limits) (now : Nat) (actions : List (Action α)) :
    Transparent key compute (Session.after ⟨⟨key, compute, .new limits⟩, now, []⟩ actions) :=
  ((new_honest key compute limits now).after consistent actions).transparent consistent

theorem transparent_after_race :
    let key (number : Nat) := if number % 2 = 0 then "even" else "odd"
    let compute (number : Nat) : Except String Nat :=
      if number % 2 = 0 then .ok 7 else .error "odd"
    (∀ number other, key number = key other → compute number = compute other) ∧
      Transparent key compute (Session.after ⟨⟨key, compute, .new ⟨1, some 5⟩⟩, 0, []⟩
        [.start 2, .start 4, .clear, .finish 1, .clock 9, .start 3, .finish 0, .finish 2]) := by
  intro key compute
  have consistent : ∀ number other, key number = key other → compute number = compute other := by
    intro number other same
    simp only [key, compute] at same ⊢
    split at same <;> split at same <;> simp_all
  exact ⟨consistent, transparent_after key compute consistent ⟨1, some 5⟩ 0 _⟩

end Reckoner.Memo
