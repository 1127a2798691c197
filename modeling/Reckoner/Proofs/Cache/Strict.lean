import Reckoner.Proofs.Cache.Soundness

/-!
Operations that are strict about the slab. They do what the operations of a cache do, but fail where
one would look for a node in a slot that is out of range or empty, or would fill a slot that does
not exist or is in use. On a sound cache none of them fails.
-/

namespace Reckoner.Cache

variable {α : Type}

namespace Strict

def updateNode (cache : Cache α) (slot : Nat) (change : Node α → Node α) : Option (Cache α) := do
  let _ ← cache.node? slot
  return cache.updateNode slot change

def linkOlder (cache : Cache α) (slot older : Option Nat) : Option (Cache α) :=
  match slot with
  | some slot => updateNode cache slot fun node => { node with older }
  | none => some { cache with newest := older }

def linkNewer (cache : Cache α) (slot newer : Option Nat) : Option (Cache α) :=
  match slot with
  | some slot => updateNode cache slot fun node => { node with newer }
  | none => some { cache with oldest := newer }

def detach (cache : Cache α) (slot : Nat) : Option (Cache α) := do
  let node ← cache.node? slot
  let bridged ← linkOlder cache node.newer node.older
  let bridged ← linkNewer bridged node.older node.newer
  updateNode bridged slot fun node => { node with newer := none, older := none }

def pushNewest (cache : Cache α) (slot : Nat) : Option (Cache α) := do
  let linked ← updateNode cache slot fun node => { node with newer := none, older := cache.newest }
  let linked ← match cache.newest with
    | some former => updateNode linked former fun node => { node with newer := some slot }
    | none => some linked
  return { linked with newest := some slot, oldest := linked.oldest.or (some slot) }

def refresh (cache : Cache α) (slot : Nat) : Option (Cache α) := do
  pushNewest (← detach cache slot) slot

def remove (cache : Cache α) (slot : Nat) : Option (Cache α × Option (Entry α)) := do
  let cache ← detach cache slot
  let node ← cache.node? slot
  return ({ cache with
    slab := cache.slab.setIfInBounds slot none
    index := cache.index.erase node.key
    free := slot :: cache.free }, some node.entry)

def isExpired (cache : Cache α) (now : Nat) (slot : Nat) : Option Bool := do
  let node ← cache.node? slot
  return cache.limits.isExpired now node.entry

def get (cache : Cache α) (now : Nat) (key : String) : Option (Cache α × Option α) :=
  match cache.index[key]? with
  | none => some ({ cache with tally := cache.tally.miss }, none)
  | some slot => do
      if ← isExpired cache now slot then
        let (removed, _) ← remove cache slot
        return ({ removed with tally := removed.tally.expire }, none)
      else
        let found ← refresh { cache with tally := cache.tally.hit } slot
        let node ← found.node? slot
        return (found, some node.entry.value)

def evict (cache : Cache α) : Option (Cache α) :=
  match cache.oldest with
  | some slot => do
      let (removed, _) ← remove cache slot
      return { removed with tally := removed.tally.evict }
  | none => some cache

def place (cache : Cache α) (node : Node α) : Option (Cache α × Nat) :=
  match cache.free with
  | slot :: free =>
      if (cache.slab[slot]?).isSome && (cache.node? slot).isNone then
        some ({ cache with slab := cache.slab.setIfInBounds slot (some node), free }, slot)
      else none
  | [] => some ({ cache with slab := cache.slab.push (some node) }, cache.slab.size)

def addNewest (cache : Cache α) (key : String) (entry : Entry α) : Option (Cache α) := do
  let (placed, slot) ← place cache { key, entry, newer := none, older := none }
  pushNewest { placed with index := placed.index.insert key slot } slot

def set (cache : Cache α) (now : Nat) (key : String) (value : α) : Option (Cache α) :=
  if cache.limits.capacity = 0 then some cache
  else
    let entry := cache.limits.entry now value
    match cache.index[key]? with
    | some slot => do refresh (← updateNode cache slot fun node => { node with entry }) slot
    | none => do
        let roomy ← if cache.limits.capacity ≤ cache.index.size then evict cache else some cache
        addNewest roomy key entry

def has (cache : Cache α) (now : Nat) (key : String) : Option Bool :=
  match cache.index[key]? with
  | some slot => (isExpired cache now slot).map (!·)
  | none => some false

def delete (cache : Cache α) (key : String) : Option (Cache α × Option α) :=
  match cache.index[key]? with
  | some slot => do
      let (removed, entry) ← remove cache slot
      return (removed, entry.map (·.value))
  | none => some (cache, none)

def chainFrom (cache : Cache α) : Nat → Option Nat → Option (List (Node α))
  | _, none => some []
  | 0, some _ => none
  | bound + 1, some slot => do
      let node ← cache.node? slot
      let rest ← chainFrom cache bound node.older
      return node :: rest

def keys (cache : Cache α) : Option (List String) :=
  (chainFrom cache cache.slab.size cache.newest).map fun nodes => nodes.map (·.key)

end Strict

theorem node_of_content {cache : Cache α} {slot : Nat} {entry : String × Entry α}
    (held : cache.content? slot = some entry) : ∃ node, cache.node? slot = some node := by
  obtain ⟨node, found, -⟩ := Option.map_eq_some_iff.mp held
  exact ⟨node, found⟩

theorem strict_updateNode {cache : Cache α} {slot : Nat} {entry : String × Entry α}
    (held : cache.content? slot = some entry) (change : Node α → Node α) :
    Strict.updateNode cache slot change = some (cache.updateNode slot change) := by
  obtain ⟨node, found⟩ := node_of_content held
  simp [Strict.updateNode, found]

theorem strict_linkOlder {cache : Cache α} {slot : Option Nat}
    (held : ∀ place, slot = some place → ∃ entry, cache.content? place = some entry)
    (older : Option Nat) :
    Strict.linkOlder cache slot older = some (cache.linkOlder slot older) := by
  cases slot with
  | none => rfl
  | some place =>
      obtain ⟨entry, held⟩ := held place rfl
      exact strict_updateNode held _

theorem strict_linkNewer {cache : Cache α} {slot : Option Nat}
    (held : ∀ place, slot = some place → ∃ entry, cache.content? place = some entry)
    (newer : Option Nat) :
    Strict.linkNewer cache slot newer = some (cache.linkNewer slot newer) := by
  cases slot with
  | none => rfl
  | some place =>
      obtain ⟨entry, held⟩ := held place rfl
      exact strict_updateNode held _

theorem Sound.strict_detach {cache : Cache α} {before after : List Nat} {slot : Nat}
    (sound : Sound cache (before ++ slot :: after)) :
    Strict.detach cache slot = some (cache.detach slot) := by
  obtain ⟨node, found, newer, older⟩ := sound.chained.linked before slot after rfl
  have bridged := linkOlder_relinked cache node.newer node.older
  have bridged' := bridged.trans (linkNewer_relinked _ node.older node.newer)
  have first : ∀ place, node.newer = some place → ∃ entry, cache.content? place = some entry := by
    intro place same
    rw [newer] at same
    exact (sound.live place).mp (List.mem_append_left _ (List.mem_of_getLast? same))
  have second : ∀ place, node.older = some place →
      ∃ entry, (cache.linkOlder node.newer node.older).content? place = some entry := by
    intro place same
    rw [older] at same
    rw [bridged.content]
    apply (sound.live place).mp
    simp [List.mem_of_head? same]
  obtain ⟨entry, held⟩ := (sound.live slot).mp (by simp)
  rw [← bridged'.content] at held
  simp only [Strict.detach, found, Option.bind_eq_bind, Option.bind_some, strict_linkOlder first,
    strict_linkNewer second, strict_updateNode held, detach]

theorem strict_pushNewest {cache : Cache α} {slot : Nat} {entry : String × Entry α}
    (held : cache.content? slot = some entry)
    (front : ∀ place, cache.newest = some place → ∃ entry, cache.content? place = some entry) :
    Strict.pushNewest cache slot = some (cache.pushNewest slot) := by
  rw [Strict.pushNewest, pushNewest, strict_updateNode held]
  have linked := updateNode_relinked cache slot
    (fun node => { node with newer := none, older := cache.newest }) fun _ => rfl
  cases newest : cache.newest with
  | none => rfl
  | some former =>
      obtain ⟨entry', held'⟩ := front former newest
      rw [← linked.content, newest] at held'
      simp only [Option.bind_eq_bind, Option.bind_some, strict_updateNode held', setNewer]
      rfl

theorem Sound.strict_refresh {cache : Cache α} {before after : List Nat} {slot : Nat}
    (sound : Sound cache (before ++ slot :: after)) :
    Strict.refresh cache slot = some (cache.refresh slot) := by
  have relinked := detach_relinked cache slot
  obtain ⟨entry, held⟩ := (sound.live slot).mp (by simp)
  rw [← relinked.content] at held
  have front : ∀ place, (cache.detach slot).newest = some place →
      ∃ entry, (cache.detach slot).content? place = some entry := by
    intro place first
    rw [sound.chained.detach.newest] at first
    rw [relinked.content]
    apply (sound.live place).mp
    have member := List.mem_of_head? first
    simp only [List.mem_append, List.mem_cons] at member ⊢
    exact member.imp_right Or.inr
  simp only [Strict.refresh, sound.strict_detach, Option.bind_eq_bind, Option.bind_some,
    strict_pushNewest held front, Cache.refresh]

theorem Sound.strict_remove {cache : Cache α} {before after : List Nat} {slot : Nat}
    (sound : Sound cache (before ++ slot :: after)) :
    Strict.remove cache slot = some (cache.remove slot) := by
  obtain ⟨entry, held⟩ := (sound.live slot).mp (by simp)
  rw [← (detach_relinked cache slot).content] at held
  obtain ⟨node, found⟩ := node_of_content held
  simp only [Strict.remove, sound.strict_detach, Option.bind_eq_bind, Option.bind_some, found,
    Option.pure_def, Cache.remove]

theorem strict_isExpired {cache : Cache α} {slot : Nat} {entry : String × Entry α}
    (held : cache.content? slot = some entry) (now : Nat) :
    Strict.isExpired cache now slot = some (cache.isExpired now slot) := by
  obtain ⟨node, found⟩ := node_of_content held
  simp [Strict.isExpired, isExpired, found]

theorem Sound.found_split {cache : Cache α} {chain : List Nat} {key : String} {slot : Nat}
    (sound : Sound cache chain) (found : cache.index[key]? = some slot) :
    ∃ before after entry, chain = before ++ slot :: after ∧
      cache.content? slot = some (key, entry) := by
  obtain ⟨entry, held⟩ := (sound.indexed key slot).mp found
  obtain ⟨before, after, split⟩ := List.append_of_mem ((sound.live slot).mpr ⟨_, held⟩)
  exact ⟨before, after, entry, split, held⟩

theorem Sound.strict_get {cache : Cache α} {chain : List Nat} (sound : Sound cache chain)
    (now : Nat) (key : String) : Strict.get cache now key = some (cache.get now key) := by
  rw [Strict.get, get]
  cases found : cache.index[key]? with
  | none => rfl
  | some slot =>
      obtain ⟨before, after, entry, rfl, held⟩ := sound.found_split found
      simp only [strict_isExpired held, Option.bind_eq_bind, Option.bind_some]
      split
      · simp only [sound.strict_remove, Option.bind_some, Option.pure_def]
      · have counted := sound.count cache.tally.hit
        have kept : (Cache.refresh { cache with tally := cache.tally.hit } slot).content? slot =
            some (key, entry) := by
          rw [(refresh_relinked _ slot).content]
          exact held
        obtain ⟨node, present⟩ := node_of_content kept
        simp only [counted.strict_refresh, Option.bind_some, present, Option.pure_def,
          Option.map_some]

theorem Sound.strict_evict {cache : Cache α} {chain : List Nat} (sound : Sound cache chain) :
    Strict.evict cache = some cache.evict := by
  rw [Strict.evict, Cache.evict]
  cases oldest : cache.oldest with
  | none => rfl
  | some slot =>
      rw [sound.chained.oldest] at oldest
      obtain ⟨before, rfl⟩ := List.getLast?_eq_some_iff.mp oldest
      simp only [sound.strict_remove, Option.bind_eq_bind, Option.bind_some, Option.pure_def]

theorem Sound.strict_place {cache : Cache α} {chain : List Nat} (sound : Sound cache chain)
    (node : Node α) : Strict.place cache node = some (cache.place node) := by
  rw [Strict.place, place]
  cases free : cache.free with
  | nil => rfl
  | cons slot rest =>
      have vacant := (sound.vacant slot).mp (by simp [free])
      have empty : cache.node? slot = none := Option.map_eq_none_iff.mp vacant.2
      simp [empty, vacant.1]

theorem Sound.strict_addNewest {cache : Cache α} {chain : List Nat} (sound : Sound cache chain)
    (key : String) (entry : Entry α) :
    Strict.addNewest cache key entry = some (cache.addNewest key entry) := by
  have held : (cache.filed key entry).content? cache.spare = some (key, entry) := by
    simp [content?, sound.node?_filed]
  have front : ∀ place, (cache.filed key entry).newest = some place →
      ∃ held, (cache.filed key entry).content? place = some held := by
    intro place first
    have newest : (cache.filed key entry).newest = cache.newest := (place_unchanged cache _).2.2.1
    rw [newest, sound.chained.newest] at first
    obtain ⟨node, found⟩ := sound.chained.node_of_mem (List.mem_of_head? first)
    simp only [content?, sound.node?_filed]
    split
    · exact ⟨_, rfl⟩
    · exact ⟨_, by rw [found]; rfl⟩
  have pushed := strict_pushNewest held front
  rw [← addNewest_eq, filed] at pushed
  simp only [Strict.addNewest, sound.strict_place, Option.bind_eq_bind, Option.bind_some,
    place_slot, (place_unchanged cache _).2.1]
  exact pushed

theorem Sound.strict_set {cache : Cache α} {chain : List Nat} (sound : Sound cache chain)
    (now : Nat) (key : String) (value : α) :
    Strict.set cache now key value = some (cache.set now key value) := by
  rw [Strict.set, set]
  split
  · rfl
  · cases found : cache.index[key]? with
    | none =>
        simp only
        split
        · simp only [sound.strict_evict, Option.bind_eq_bind, Option.bind_some,
            sound.evict.strict_addNewest]
        · simp only [Option.bind_eq_bind, Option.bind_some, sound.strict_addNewest]
    | some slot =>
        obtain ⟨before, after, entry, rfl, held⟩ := sound.found_split found
        have updated := strict_updateNode held fun node =>
          { node with entry := cache.limits.entry now value }
        have overwritten := sound.overwrite held (cache.limits.entry now value)
        simp only [updated, Option.bind_eq_bind, Option.bind_some]
        exact overwritten.strict_refresh

theorem Sound.strict_has {cache : Cache α} {chain : List Nat} (sound : Sound cache chain)
    (now : Nat) (key : String) : Strict.has cache now key = some (cache.has now key) := by
  rw [Strict.has, has]
  cases found : cache.index[key]? with
  | none => rfl
  | some slot =>
      obtain ⟨before, after, entry, rfl, held⟩ := sound.found_split found
      simp only [strict_isExpired held, Option.map_some]

theorem Sound.strict_delete {cache : Cache α} {chain : List Nat} (sound : Sound cache chain)
    (key : String) : Strict.delete cache key = some (cache.delete key) := by
  rw [Strict.delete, delete]
  cases found : cache.index[key]? with
  | none => rfl
  | some slot =>
      obtain ⟨before, after, entry, rfl, -⟩ := sound.found_split found
      simp only [sound.strict_remove, Option.bind_eq_bind, Option.bind_some, Option.pure_def]

theorem Chained.strict_chainFrom {cache : Cache α} {chain : List Nat}
    (chained : Chained cache chain) :
    ∀ (rest before : List Nat) (bound : Nat), chain = before ++ rest → rest.length ≤ bound →
      Strict.chainFrom cache bound rest.head? = some (rest.filterMap cache.node?) := by
  intro rest
  induction rest with
  | nil =>
      intro before bound _ _
      cases bound <;> rfl
  | cons slot rest ih =>
      intro before bound split enough
      cases bound with
      | zero => simp at enough
      | succ bound =>
          obtain ⟨node, found, -, older⟩ := chained.linked before slot rest split
          have tail := ih (before ++ [slot]) bound (by simp [split]) (by simpa using enough)
          simp [Strict.chainFrom, found, older, tail]

theorem Sound.strict_keys {cache : Cache α} {chain : List Nat} (sound : Sound cache chain) :
    Strict.keys cache = some cache.keys := by
  have walk := sound.chained.strict_chainFrom chain [] _ rfl sound.chained.length_le
  rw [Strict.keys, sound.chained.newest, walk, Option.map_some, keys, sound.chained.nodes_eq]

end Reckoner.Cache
