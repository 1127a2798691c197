import Reckoner.Cache

/-!
The chain of a cache, which is its slots from the most to the least recently used. Taking a slot out
of the chain and putting one in front change links only, and each has one equation for the node of
every slot. From these follows what becomes of the order.
-/

namespace Reckoner.Cache

variable {α : Type}

def content? (cache : Cache α) (slot : Nat) : Option (String × Entry α) :=
  (cache.node? slot).map fun node => (node.key, node.entry)

/-- The slots of a chain in its order: each once, from the newest to the oldest, and each linked to
the slot before it and to the slot after it. -/
structure Chained (cache : Cache α) (chain : List Nat) : Prop where
  unique : chain.Nodup
  newest : cache.newest = chain.head?
  oldest : cache.oldest = chain.getLast?
  linked : ∀ before slot after, chain = before ++ slot :: after →
    ∃ node, cache.node? slot = some node ∧
      node.newer = before.getLast? ∧ node.older = after.head?

theorem node?_updateNode (cache : Cache α) (slot other : Nat) (change : Node α → Node α) :
    (cache.updateNode slot change).node? other =
      if other = slot then (cache.node? other).map change else cache.node? other := by
  simp only [node?, updateNode, Array.getElem?_modify]
  by_cases same : other = slot
  · subst other
    cases found : cache.slab[slot]? with
    | none => simp
    | some stored => cases stored <;> simp
  · simp [same, Ne.symm same]

theorem content?_updateNode (cache : Cache α) (slot : Nat) (change : Node α → Node α)
    (kept : ∀ node, ((change node).key, (change node).entry) = (node.key, node.entry)) :
    (cache.updateNode slot change).content? = cache.content? := by
  funext other
  simp only [content?, node?_updateNode]
  split
  · simp only [Option.map_map, Function.comp_def, kept]
  · rfl

theorem node?_linkOlder (cache : Cache α) (slot older : Option Nat) (other : Nat) :
    (cache.linkOlder slot older).node? other = (cache.node? other).map fun node =>
      { node with older := if slot = some other then older else node.older } := by
  cases slot with
  | none => simp [linkOlder, node?]
  | some slot =>
      simp only [linkOlder, setOlder, node?_updateNode, Option.some.injEq, eq_comm (a := other)]
      split <;> simp

theorem node?_linkNewer (cache : Cache α) (slot newer : Option Nat) (other : Nat) :
    (cache.linkNewer slot newer).node? other = (cache.node? other).map fun node =>
      { node with newer := if slot = some other then newer else node.newer } := by
  cases slot with
  | none => simp [linkNewer, node?]
  | some slot =>
      simp only [linkNewer, setNewer, node?_updateNode, Option.some.injEq, eq_comm (a := other)]
      split <;> simp

theorem node?_detach {cache : Cache α} {slot : Nat} {node : Node α}
    (found : cache.node? slot = some node) (other : Nat) :
    (cache.detach slot).node? other =
      if other = slot then some { node with newer := none, older := none }
      else (cache.node? other).map fun neighbour =>
        { neighbour with
          newer := if node.older = some other then node.newer else neighbour.newer
          older := if node.newer = some other then node.older else neighbour.older } := by
  simp only [detach, found, node?_updateNode, node?_linkNewer, node?_linkOlder, Option.map_map]
  by_cases same : other = slot
  · subst other
    simp [found]
  · simp [same, Function.comp_def]

theorem newest_detach {cache : Cache α} {slot : Nat} {node : Node α}
    (found : cache.node? slot = some node) :
    (cache.detach slot).newest = if node.newer = none then node.older else cache.newest := by
  simp only [detach, found, updateNode, linkNewer, linkOlder]
  cases node.newer <;> cases node.older <;> rfl

theorem oldest_detach {cache : Cache α} {slot : Nat} {node : Node α}
    (found : cache.node? slot = some node) :
    (cache.detach slot).oldest = if node.older = none then node.newer else cache.oldest := by
  simp only [detach, found, updateNode, linkNewer, linkOlder]
  cases node.newer <;> cases node.older <;> rfl

theorem append_split {before after front back : List Nat} {other : Nat}
    (split : before ++ after = front ++ other :: back) :
    (∃ middle, before = front ++ other :: middle ∧ back = middle ++ after) ∨
      ∃ middle, front = before ++ middle ∧ after = middle ++ other :: back := by
  rcases List.append_eq_append_iff.mp split with ⟨middle, first, second⟩ | ⟨middle, first, second⟩
  · exact Or.inr ⟨middle, first, second⟩
  · cases middle with
    | nil => exact Or.inr ⟨[], by simpa using first.symm, by simpa using second.symm⟩
    | cons next middle =>
        obtain ⟨rfl, rest⟩ := List.cons.inj second
        exact Or.inl ⟨middle, first, rest⟩

theorem not_mem_of_split {β : Type} {before after : List β} {middle : β}
    (unique : (before ++ middle :: after).Nodup) : middle ∉ before ∧ middle ∉ after := by
  have parts := List.nodup_append.mp unique
  refine ⟨?_, (List.nodup_cons.mp parts.2.1).1⟩
  intro member
  exact parts.2.2 middle member middle (by simp) rfl

theorem nodup_of_split {before after : List Nat} {slot : Nat}
    (unique : (before ++ slot :: after).Nodup) : (before ++ after).Nodup := by
  exact unique.sublist (List.sublist_cons_self slot after |>.append_left before)

theorem Chained.detach {cache : Cache α} {before after : List Nat} {slot : Nat}
    (chained : Chained cache (before ++ slot :: after)) :
    Chained (cache.detach slot) (before ++ after) := by
  obtain ⟨unique, newest, oldest, linked⟩ := chained
  obtain ⟨node, found, newer, older⟩ := linked before slot after rfl
  constructor
  · exact nodup_of_split unique
  · rw [newest_detach found, newer, older, newest]
    cases before <;> simp
  · rw [oldest_detach found, newer, older, oldest]
    cases after <;> simp
  · intro front other back split
    rw [node?_detach found, newer, older]
    rcases append_split split with ⟨middle, rfl, rfl⟩ | ⟨middle, rfl, rfl⟩
    · have whole : front ++ other :: middle ++ slot :: after =
          front ++ other :: (middle ++ slot :: after) := by simp
      obtain ⟨neighbour, held, newer', older'⟩ := linked _ _ _ whole
      obtain ⟨-, apart⟩ := not_mem_of_split (whole ▸ unique)
      simp only [List.mem_append, List.mem_cons, not_or] at apart
      have notAfter : after.head? ≠ some other := fun same => apart.2.2 (List.mem_of_head? same)
      rw [if_neg apart.2.1, held]
      refine ⟨_, rfl, by simp [notAfter, newer'], ?_⟩
      cases middle with
      | nil => simp
      | cons next middle =>
          have notLast : (next :: middle).getLast? ≠ some other :=
            fun same => apart.1 (List.mem_of_getLast? same)
          simp [notLast, older']
    · have whole : before ++ slot :: (middle ++ other :: back) =
          (before ++ slot :: middle) ++ other :: back := by simp
      obtain ⟨neighbour, held, newer', older'⟩ := linked _ _ _ whole
      obtain ⟨apart, -⟩ := not_mem_of_split (whole ▸ unique)
      simp only [List.mem_append, List.mem_cons, not_or] at apart
      have notBefore : before.getLast? ≠ some other :=
        fun same => apart.1 (List.mem_of_getLast? same)
      rw [if_neg apart.2.1, held]
      refine ⟨_, rfl, ?_, by simp [notBefore, older']⟩
      cases middle with
      | nil => simp
      | cons next middle =>
          have notFirst : next ≠ other := by
            intro same
            exact apart.2.2 (by simp [same])
          simp [notFirst, newer']

theorem node?_pushNewest (cache : Cache α) (slot other : Nat) :
    (cache.pushNewest slot).node? other =
      (if other = slot then
          (cache.node? other).map fun node => { node with newer := none, older := cache.newest }
        else cache.node? other).map fun node =>
        { node with newer := if cache.newest = some other then some slot else node.newer } := by
  rw [← node?_updateNode, pushNewest]
  cases cache.newest with
  | none => simp [node?]
  | some former =>
      rw [← node?_linkNewer]
      rfl

theorem oldest_pushNewest (cache : Cache α) (slot : Nat) :
    (cache.pushNewest slot).oldest = cache.oldest.or (some slot) := by
  rw [pushNewest]
  cases cache.newest <;> rfl

theorem Chained.pushNewest {cache : Cache α} {chain : List Nat} {slot : Nat}
    (chained : Chained cache chain) (fresh : slot ∉ chain) {node : Node α}
    (found : cache.node? slot = some node) :
    Chained (cache.pushNewest slot) (slot :: chain) := by
  obtain ⟨unique, newest, oldest, linked⟩ := chained
  constructor
  · exact List.nodup_cons.mpr ⟨fresh, unique⟩
  · rfl
  · rw [oldest_pushNewest, oldest]
    cases chain <;> simp [List.getLast?_cons]
  · intro before other after split
    rw [node?_pushNewest, newest]
    cases before with
    | nil =>
        obtain ⟨rfl, rfl⟩ := List.cons.inj split
        have notFirst : chain.head? ≠ some slot := fun same => fresh (List.mem_of_head? same)
        simp [found, notFirst]
    | cons first before =>
        obtain ⟨rfl, rfl⟩ := List.cons.inj split
        obtain ⟨neighbour, held, newer, older⟩ := linked before other after rfl
        have different : other ≠ slot := by
          intro same
          exact fresh (by simp [same])
        rw [if_neg different, held]
        refine ⟨_, rfl, ?_, older⟩
        cases before with
        | nil => simp
        | cons next before =>
            have notFirst : next ≠ other := by
              intro same
              exact (not_mem_of_split unique).1 (by simp [same])
            simp [notFirst, newer]

theorem Chained.refresh {cache : Cache α} {before after : List Nat} {slot : Nat}
    (chained : Chained cache (before ++ slot :: after)) :
    Chained (cache.refresh slot) (slot :: (before ++ after)) := by
  obtain ⟨node, found, -⟩ := chained.linked before slot after rfl
  have fresh : slot ∉ before ++ after := by
    simpa using not_mem_of_split chained.unique
  have kept : (cache.detach slot).node? slot = some { node with newer := none, older := none } := by
    rw [node?_detach found, if_pos rfl]
  exact chained.detach.pushNewest fresh kept

theorem Chained.transfer {cache other : Cache α} {chain : List Nat} (chained : Chained cache chain)
    (newest : other.newest = cache.newest) (oldest : other.oldest = cache.oldest)
    (agree : ∀ slot ∈ chain, other.node? slot = cache.node? slot) : Chained other chain := by
  constructor
  · exact chained.unique
  · rw [newest, chained.newest]
  · rw [oldest, chained.oldest]
  · intro before slot after split
    rw [agree slot (by simp [split])]
    exact chained.linked before slot after split

theorem Chained.node_of_mem {cache : Cache α} {chain : List Nat} {slot : Nat}
    (chained : Chained cache chain) (member : slot ∈ chain) :
    ∃ node, cache.node? slot = some node := by
  obtain ⟨before, after, split⟩ := List.append_of_mem member
  obtain ⟨node, found, -⟩ := chained.linked before slot after split
  exact ⟨node, found⟩

theorem lt_size_of_node {cache : Cache α} {slot : Nat} {node : Node α}
    (found : cache.node? slot = some node) : slot < cache.slab.size := by
  rw [node?, Option.join_eq_some_iff] at found
  obtain ⟨within, -⟩ := Array.getElem?_eq_some_iff.mp found
  exact within

theorem Chained.length_le {cache : Cache α} {chain : List Nat} (chained : Chained cache chain) :
    chain.length ≤ cache.slab.size := by
  have within : chain ⊆ List.range cache.slab.size := by
    intro slot member
    obtain ⟨node, found⟩ := chained.node_of_mem member
    exact List.mem_range.mpr (lt_size_of_node found)
  simpa using chained.unique.length_le_of_subset within

theorem Chained.chainFrom_eq {cache : Cache α} {chain : List Nat} (chained : Chained cache chain) :
    ∀ (rest before : List Nat) (bound : Nat), chain = before ++ rest → rest.length ≤ bound →
      cache.chainFrom bound rest.head? = rest.filterMap cache.node? := by
  intro rest
  induction rest with
  | nil =>
      intro before bound _ _
      cases bound <;> rfl
  | cons slot rest ih =>
      intro before bound split enough
      cases bound with
      | zero => simp at enough
      | succ bound =>
          obtain ⟨node, found, -, older⟩ := chained.linked before slot rest split
          have tail := ih (before ++ [slot]) bound (by simp [split]) (by simpa using enough)
          simp [chainFrom, found, older, tail]

theorem Chained.nodes_eq {cache : Cache α} {chain : List Nat} (chained : Chained cache chain) :
    cache.nodes = chain.filterMap cache.node? := by
  rw [nodes, chained.newest]
  exact chained.chainFrom_eq chain [] _ rfl chained.length_le

structure Relinked (cache other : Cache α) : Prop where
  limits : other.limits = cache.limits
  index : other.index = cache.index
  free : other.free = cache.free
  tally : other.tally = cache.tally
  size : other.slab.size = cache.slab.size
  content : other.content? = cache.content?

theorem Relinked.trans {cache other last : Cache α} (first : Relinked cache other)
    (second : Relinked other last) : Relinked cache last := by
  constructor
  · rw [second.limits, first.limits]
  · rw [second.index, first.index]
  · rw [second.free, first.free]
  · rw [second.tally, first.tally]
  · rw [second.size, first.size]
  · rw [second.content, first.content]

theorem updateNode_relinked (cache : Cache α) (slot : Nat) (change : Node α → Node α)
    (kept : ∀ node, ((change node).key, (change node).entry) = (node.key, node.entry)) :
    Relinked cache (cache.updateNode slot change) := by
  refine ⟨rfl, rfl, rfl, rfl, ?_, content?_updateNode cache slot change kept⟩
  simp [updateNode]

theorem linkOlder_relinked (cache : Cache α) (slot older : Option Nat) :
    Relinked cache (cache.linkOlder slot older) := by
  cases slot with
  | none => exact ⟨rfl, rfl, rfl, rfl, rfl, rfl⟩
  | some slot => exact updateNode_relinked cache slot _ fun _ => rfl

theorem linkNewer_relinked (cache : Cache α) (slot newer : Option Nat) :
    Relinked cache (cache.linkNewer slot newer) := by
  cases slot with
  | none => exact ⟨rfl, rfl, rfl, rfl, rfl, rfl⟩
  | some slot => exact updateNode_relinked cache slot _ fun _ => rfl

theorem detach_relinked (cache : Cache α) (slot : Nat) : Relinked cache (cache.detach slot) := by
  rw [detach]
  cases cache.node? slot with
  | none => exact ⟨rfl, rfl, rfl, rfl, rfl, rfl⟩
  | some node =>
      have bridged := (linkOlder_relinked cache node.newer node.older).trans
        (linkNewer_relinked _ node.older node.newer)
      exact bridged.trans (updateNode_relinked _ slot _ fun _ => rfl)

theorem pushNewest_relinked (cache : Cache α) (slot : Nat) :
    Relinked cache (cache.pushNewest slot) := by
  have ends (other : Cache α) (newest oldest : Option Nat) :
      Relinked other { other with newest, oldest } := ⟨rfl, rfl, rfl, rfl, rfl, rfl⟩
  rw [pushNewest]
  generalize cache.newest = newest
  have linked := updateNode_relinked cache slot
    (fun node => { node with newer := none, older := newest }) fun _ => rfl
  cases newest with
  | none => exact linked.trans (ends _ _ _)
  | some former =>
      have fronted (other : Cache α) : Relinked other (other.setNewer former (some slot)) :=
        updateNode_relinked other former _ fun _ => rfl
      exact (linked.trans (fronted _)).trans (ends _ _ _)

theorem refresh_relinked (cache : Cache α) (slot : Nat) : Relinked cache (cache.refresh slot) :=
  (detach_relinked cache slot).trans (pushNewest_relinked _ slot)

end Reckoner.Cache
