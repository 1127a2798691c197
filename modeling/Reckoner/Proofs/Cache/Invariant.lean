import Reckoner.Proofs.Cache.Refinement
import Reckoner.Proofs.Cache.Strict

/-!
What holds of a cache after every run: its links, its index, its slab and its list of empty slots
agree with one another, they stay within the capacity, and no operation reaches for a node where
there is none.
-/

namespace Reckoner.Cache

variable {α : Type}

def Leads (cache : Cache α) (link : Node α → Option Nat) : Option Nat → List Nat → Prop
  | start, [] => start = none
  | start, slot :: rest =>
      start = some slot ∧ ∃ node, cache.node? slot = some node ∧ Leads cache link (link node) rest

def Threaded (cache : Cache α) : Prop :=
  ∃ chain : List Nat, chain.Nodup ∧ (∀ slot, slot ∈ chain ↔ ∃ node, cache.node? slot = some node) ∧
    Leads cache Node.older cache.newest chain ∧ cache.oldest = chain.getLast? ∧
    Leads cache Node.newer cache.oldest chain.reverse ∧ cache.newest = chain.head?

/-- The agreement of the parts of a cache under some limits. -/
structure Intact (cache : Cache α) (limits : Limits) : Prop where
  threaded : Threaded cache
  indexed : ∀ key slot, cache.index[key]? = some slot ↔
    ∃ node, cache.node? slot = some node ∧ node.key = key
  distinct : ∀ slot slot' node node', cache.node? slot = some node →
    cache.node? slot' = some node' → node.key = node'.key → slot = slot'
  waiting : cache.free.Nodup
  vacant : ∀ slot, slot ∈ cache.free ↔ cache.slab[slot]? = some none
  sizes : cache.index.size + cache.free.length = cache.slab.size
  keysBounded : cache.index.size ≤ limits.capacity
  slotsBounded : cache.slab.size ≤ limits.capacity

/-- Whether every operation finds a node in each slot where it looks for one, and an empty slot
where it puts one. -/
structure Guarded (cache : Cache α) : Prop where
  set : ∀ now key value, Strict.set cache now key value = some (cache.set now key value)
  get : ∀ now key, Strict.get cache now key = some (cache.get now key)
  has : ∀ now key, Strict.has cache now key = some (cache.has now key)
  delete : ∀ key, Strict.delete cache key = some (cache.delete key)
  keys : Strict.keys cache = some cache.keys

theorem Chained.leads_older {cache : Cache α} {chain : List Nat} (chained : Chained cache chain) :
    ∀ rest before, chain = before ++ rest → Leads cache Node.older rest.head? rest := by
  intro rest
  induction rest with
  | nil =>
      intro before _
      rfl
  | cons slot rest ih =>
      intro before split
      obtain ⟨node, found, -, older⟩ := chained.linked before slot rest split
      refine ⟨rfl, node, found, ?_⟩
      rw [older]
      exact ih (before ++ [slot]) (by simp [split])

theorem Chained.leads_newer {cache : Cache α} {chain : List Nat} (chained : Chained cache chain) :
    ∀ front after, chain = front.reverse ++ after → Leads cache Node.newer front.head? front := by
  intro front
  induction front with
  | nil =>
      intro after _
      rfl
  | cons slot front ih =>
      intro after split
      rw [List.reverse_cons, List.append_assoc] at split
      obtain ⟨node, found, newer, -⟩ := chained.linked front.reverse slot after split
      refine ⟨rfl, node, found, ?_⟩
      rw [newer, List.getLast?_reverse]
      exact ih (slot :: after) split

theorem slab_eq_none_iff {cache : Cache α} {slot : Nat} :
    cache.slab[slot]? = some none ↔ slot < cache.slab.size ∧ cache.content? slot = none := by
  rw [content?, Option.map_eq_none_iff, node?]
  by_cases within : slot < cache.slab.size
  · simp [within]
  · simp [within]

theorem Sound.threaded {cache : Cache α} {chain : List Nat} (sound : Sound cache chain) :
    Threaded cache := by
  have chained := sound.chained
  have back := chained.leads_newer chain.reverse [] (by simp)
  rw [List.head?_reverse, ← chained.oldest] at back
  have forth := chained.leads_older chain [] rfl
  rw [← chained.newest] at forth
  refine ⟨chain, chained.unique, ?_, forth, chained.oldest, back, chained.newest⟩
  intro slot
  rw [sound.live]
  simp [content?]

theorem Sound.intact {cache : Cache α} {chain : List Nat} (sound : Sound cache chain) :
    Intact cache cache.limits := by
  have sizes := sound.slab_size
  rw [← sound.index_size] at sizes
  have bounded := sound.bounded
  have indexed : ∀ key slot, cache.index[key]? = some slot ↔
      ∃ node, cache.node? slot = some node ∧ node.key = key := by
    intro key slot
    rw [sound.indexed]
    simp [content?]
  constructor
  · exact sound.threaded
  · exact indexed
  · intro slot slot' node node' found found' same
    have first := (indexed node.key slot).mpr ⟨node, found, rfl⟩
    have second := (indexed node.key slot').mpr ⟨node', found', same.symm⟩
    rw [first] at second
    exact Option.some.inj second
  · exact sound.waiting
  · intro slot
    rw [sound.vacant, slab_eq_none_iff]
  · exact sizes
  · omega
  · exact bounded

theorem Sound.guarded {cache : Cache α} {chain : List Nat} (sound : Sound cache chain) :
    Guarded cache := by
  constructor
  · exact sound.strict_set
  · exact sound.strict_get
  · exact sound.strict_has
  · exact sound.strict_delete
  · exact sound.strict_keys

theorem Recency.limits_step (session : Session (Recency α)) (action : Action α) :
    ((Recency.operations α).step session action).1.memory.limits = session.memory.limits := by
  cases action with
  | set key value =>
      change (session.memory.set session.now key value).limits = _
      rw [Recency.set]
      split
      · rfl
      · cases session.memory.find? key <;> grind
  | get key =>
      change (session.memory.get session.now key).1.limits = _
      rw [Recency.get]
      cases session.memory.find? key <;> grind
  | has key => rfl
  | delete key =>
      change (session.memory.delete key).1.limits = _
      rw [Recency.delete]
      cases session.memory.find? key <;> rfl
  | clear => rfl
  | clock now => rfl

/-- After every run from a new cache, under any limits and any movement of the clock, the parts of
the cache agree and every operation finds the nodes that it looks for. -/
theorem after_intact (limits : Limits) (now : Nat) (actions : List (Action α)) :
    Intact ((operations α).after ⟨new limits, now⟩ actions).memory limits ∧
      Guarded ((operations α).after ⟨new limits, now⟩ actions).memory := by
  let property (session : Session (Cache α)) : Prop :=
    ∃ chain recency, Represents session.memory chain recency ∧ recency.limits = limits
  have reached : property ((operations α).after ⟨new limits, now⟩ actions) := by
    apply Operations.after_induction
    · rintro session action ⟨chain, recency, represents, same⟩
      have inStep : InStep session ⟨recency, session.now⟩ := ⟨⟨chain, represents⟩, rfl⟩
      obtain ⟨⟨⟨chain', next⟩, -⟩, -⟩ := inStep.step action
      exact ⟨chain', _, next, (Recency.limits_step _ action).trans same⟩
    · exact ⟨[], Recency.new limits, new_represents limits, rfl⟩
  obtain ⟨chain, recency, represents, same⟩ := reached
  have intact := represents.sound.intact
  rw [← represents.limits, same] at intact
  exact ⟨intact, represents.sound.guarded⟩

end Reckoner.Cache
