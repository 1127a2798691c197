import Mathlib.Data.List.Basic
import Reckoner.Cache.Recency
import Reckoner.Proofs.Cache.Chain

/-!
Soundness of a cache: its chain runs through exactly the slots that hold something, its index leads
to exactly these, and the other slots wait for reuse. Every step of an operation that leaves a sound
cache behind is described by the chain and the contents after it.
-/

namespace Reckoner.Cache

variable {α : Type}

/-- The invariant of a cache, with the chain of its slots. -/
structure Sound (cache : Cache α) (chain : List Nat) : Prop where
  chained : Chained cache chain
  live : ∀ slot, slot ∈ chain ↔ ∃ entry, cache.content? slot = some entry
  indexed : ∀ key slot, cache.index[key]? = some slot ↔
    ∃ entry, cache.content? slot = some (key, entry)
  waiting : cache.free.Nodup
  vacant : ∀ slot, slot ∈ cache.free ↔ slot < cache.slab.size ∧ cache.content? slot = none
  bounded : cache.slab.size ≤ cache.limits.capacity

theorem new_sound (limits : Limits) : Sound (new limits : Cache α) [] := by
  constructor
  · constructor
    · exact List.nodup_nil
    · rfl
    · rfl
    · intro before slot after split
      simp at split
  · intro slot
    simp [new, content?, node?]
  · intro key slot
    simp [new, content?, node?]
  · exact List.nodup_nil
  · intro slot
    simp [new]
  · simp [new]

theorem clear_sound (cache : Cache α) : Sound cache.clear [] := by
  constructor
  · constructor
    · exact List.nodup_nil
    · rfl
    · rfl
    · intro before slot after split
      simp at split
  · intro slot
    simp [clear, content?, node?]
  · intro key slot
    simp [clear, content?, node?]
  · exact List.nodup_nil
  · intro slot
    simp [clear]
  · simp [clear]

theorem Sound.relink {cache other : Cache α} {chain order : List Nat} (sound : Sound cache chain)
    (relinked : Relinked cache other) (chained : Chained other order)
    (same : ∀ slot, slot ∈ order ↔ slot ∈ chain) : Sound other order := by
  constructor
  · exact chained
  · intro slot
    rw [same, relinked.content, sound.live]
  · intro key slot
    rw [relinked.index, relinked.content, sound.indexed]
  · rw [relinked.free]
    exact sound.waiting
  · intro slot
    rw [relinked.free, relinked.size, relinked.content, sound.vacant]
  · rw [relinked.size, relinked.limits]
    exact sound.bounded

theorem Sound.refresh {cache : Cache α} {before after : List Nat} {slot : Nat}
    (sound : Sound cache (before ++ slot :: after)) :
    Sound (cache.refresh slot) (slot :: (before ++ after)) := by
  apply sound.relink (refresh_relinked cache slot) sound.chained.refresh
  intro other
  simp only [List.mem_cons, List.mem_append]
  exact or_left_comm

theorem Sound.slot_eq {cache : Cache α} {chain : List Nat} (sound : Sound cache chain)
    {first second : Nat} {key : String} {entry entry' : Entry α}
    (held : cache.content? first = some (key, entry))
    (held' : cache.content? second = some (key, entry')) : first = second := by
  have found := (sound.indexed key first).mpr ⟨entry, held⟩
  have found' := (sound.indexed key second).mpr ⟨entry', held'⟩
  rw [found] at found'
  exact Option.some.inj found'

theorem Sound.slab_size {cache : Cache α} {chain : List Nat} (sound : Sound cache chain) :
    chain.length + cache.free.length = cache.slab.size := by
  have unique : (chain ++ cache.free).Nodup := by
    refine List.nodup_append.mpr ⟨sound.chained.unique, sound.waiting, ?_⟩
    rintro slot live _ free rfl
    obtain ⟨entry, held⟩ := (sound.live slot).mp live
    simp [((sound.vacant slot).mp free).2] at held
  have same : ∀ slot, slot ∈ chain ++ cache.free ↔ slot ∈ List.range cache.slab.size := by
    intro slot
    rw [List.mem_append, List.mem_range, sound.live, sound.vacant]
    cases held : cache.content? slot with
    | none => simp
    | some entry =>
        obtain ⟨node, found, -⟩ := Option.map_eq_some_iff.mp held
        simp [lt_size_of_node found]
  have count := ((List.perm_ext_iff_of_nodup unique List.nodup_range).mpr same).length_eq
  simpa using count

def listing (cache : Cache α) (chain : List Nat) : List (String × Entry α) :=
  chain.filterMap cache.content?

theorem listing_append (cache : Cache α) (before after : List Nat) :
    cache.listing (before ++ after) = cache.listing before ++ cache.listing after := by
  exact List.filterMap_append

theorem listing_cons {cache : Cache α} {slot : Nat} {entry : String × Entry α}
    (held : cache.content? slot = some entry) (rest : List Nat) :
    cache.listing (slot :: rest) = entry :: cache.listing rest := by
  exact List.filterMap_cons_some held

theorem listing_congr {cache other : Cache α} {chain : List Nat}
    (agree : ∀ slot ∈ chain, other.content? slot = cache.content? slot) :
    other.listing chain = cache.listing chain := by
  exact List.filterMap_congr agree

theorem Sound.listing_length {cache : Cache α} {chain : List Nat} (sound : Sound cache chain) :
    (cache.listing chain).length = chain.length := by
  apply List.filterMap_length_eq_length.mpr
  intro slot member
  obtain ⟨entry, held⟩ := (sound.live slot).mp member
  simp [held]

theorem Sound.keys_nodup {cache : Cache α} {chain : List Nat} (sound : Sound cache chain) :
    ((cache.listing chain).map (·.1)).Nodup := by
  rw [List.Nodup, List.pairwise_map, listing, List.pairwise_filterMap]
  apply sound.chained.unique.imp
  rintro first second different ⟨key, entry⟩ held ⟨key', entry'⟩ held' rfl
  exact different (sound.slot_eq held held')

theorem Sound.mem_keys {cache : Cache α} {chain : List Nat} (sound : Sound cache chain)
    (key : String) :
    key ∈ (cache.listing chain).map (·.1) ↔ ∃ slot, cache.index[key]? = some slot := by
  simp only [listing, List.mem_map, List.mem_filterMap, sound.indexed]
  constructor
  · rintro ⟨⟨_, entry⟩, ⟨slot, -, held⟩, rfl⟩
    exact ⟨slot, entry, held⟩
  · rintro ⟨slot, entry, held⟩
    exact ⟨(key, entry), ⟨slot, (sound.live slot).mpr ⟨_, held⟩, held⟩, rfl⟩

theorem Sound.index_size {cache : Cache α} {chain : List Nat} (sound : Sound cache chain) :
    cache.index.size = chain.length := by
  have same : ∀ key, key ∈ cache.index.keys ↔ key ∈ (cache.listing chain).map (·.1) := by
    intro key
    rw [sound.mem_keys, Std.HashMap.mem_keys, Std.HashMap.mem_iff_isSome_getElem?,
      Option.isSome_iff_exists]
  have count := ((List.perm_ext_iff_of_nodup cache.index.nodup_keys sound.keys_nodup).mpr
    same).length_eq
  simpa [sound.listing_length] using count

theorem remove_eq {cache : Cache α} {slot : Nat} {key : String} {entry : Entry α}
    (held : cache.content? slot = some (key, entry)) :
    cache.remove slot = ({ cache.detach slot with
      slab := (cache.detach slot).slab.setIfInBounds slot none
      index := cache.index.erase key
      free := slot :: cache.free }, some entry) := by
  have relinked := detach_relinked cache slot
  have kept := held
  rw [← relinked.content] at kept
  obtain ⟨node, found, same⟩ := Option.map_eq_some_iff.mp kept
  obtain ⟨rfl, rfl⟩ := Prod.mk.inj same
  simp only [remove, found, relinked.index, relinked.free]

theorem node?_remove {cache : Cache α} {slot : Nat} {key : String} {entry : Entry α}
    (held : cache.content? slot = some (key, entry)) (other : Nat) :
    (cache.remove slot).1.node? other =
      if other = slot then none else (cache.detach slot).node? other := by
  simp only [remove_eq held, node?, Array.getElem?_setIfInBounds]
  by_cases same : other = slot
  · subst other
    simp only [if_true]
    split <;> rfl
  · simp [same, Ne.symm same]

theorem content?_remove {cache : Cache α} {slot : Nat} {key : String} {entry : Entry α}
    (held : cache.content? slot = some (key, entry)) (other : Nat) :
    (cache.remove slot).1.content? other =
      if other = slot then none else cache.content? other := by
  rw [content?, node?_remove held, ← (detach_relinked cache slot).content, content?]
  split <;> rfl

theorem slab_size_remove {cache : Cache α} {slot : Nat} {key : String} {entry : Entry α}
    (held : cache.content? slot = some (key, entry)) :
    (cache.remove slot).1.slab.size = cache.slab.size := by
  rw [remove_eq held, ← (detach_relinked cache slot).size]
  exact Array.size_setIfInBounds

theorem lt_size_of_content {cache : Cache α} {slot : Nat} {entry : String × Entry α}
    (held : cache.content? slot = some entry) : slot < cache.slab.size := by
  obtain ⟨node, found, -⟩ := Option.map_eq_some_iff.mp held
  exact lt_size_of_node found

theorem Sound.indexed_remove {cache : Cache α} {chain : List Nat} {slot other : Nat}
    {key key' : String} {entry : Entry α} (sound : Sound cache chain)
    (held : cache.content? slot = some (key, entry)) :
    (cache.remove slot).1.index[key']? = some other ↔
      ∃ entry', (cache.remove slot).1.content? other = some (key', entry') := by
  have index : (cache.remove slot).1.index = cache.index.erase key := by rw [remove_eq held]
  rw [content?_remove held, index, Std.HashMap.getElem?_erase]
  by_cases same : other = slot
  · subst other
    by_cases erased : key = key'
    · simp [erased]
    · simp [erased, sound.indexed, held]
  · by_cases erased : key = key'
    · subst key'
      simp only [beq_self_eq_true, if_true, if_neg same, reduceCtorEq, false_iff, not_exists]
      intro entry' held'
      exact same (sound.slot_eq held' held)
    · simp [erased, same, sound.indexed]

theorem Sound.remove {cache : Cache α} {before after : List Nat} {slot : Nat} {key : String}
    {entry : Entry α} (sound : Sound cache (before ++ slot :: after))
    (held : cache.content? slot = some (key, entry)) :
    Sound (cache.remove slot).1 (before ++ after) := by
  have apart : slot ∉ before ++ after := by
    simpa using not_mem_of_split sound.chained.unique
  have notFree : slot ∉ cache.free := by
    rw [sound.vacant, held]
    simp
  have free : (cache.remove slot).1.free = slot :: cache.free := by rw [remove_eq held]
  have limits : (cache.remove slot).1.limits = cache.limits := by
    rw [remove_eq held]
    exact (detach_relinked cache slot).limits
  constructor
  · apply sound.chained.detach.transfer
    · rw [remove_eq held]
    · rw [remove_eq held]
    · intro other member
      have different : other ≠ slot := by
        rintro rfl
        exact apart member
      rw [node?_remove held, if_neg different]
  · intro other
    rw [content?_remove held]
    by_cases same : other = slot
    · simpa [same] using apart
    · rw [if_neg same, ← sound.live]
      simp [same]
  · intro key' other
    exact sound.indexed_remove held
  · rw [free]
    exact List.nodup_cons.mpr ⟨notFree, sound.waiting⟩
  · intro other
    rw [free, List.mem_cons, sound.vacant, content?_remove held, slab_size_remove held]
    by_cases same : other = slot
    · subst other
      simp [lt_size_of_content held]
    · simp [same]
  · rw [slab_size_remove held, limits]
    exact sound.bounded

def spare (cache : Cache α) : Nat :=
  cache.free.head?.getD cache.slab.size

theorem place_slot (cache : Cache α) (node : Node α) : (cache.place node).2 = cache.spare := by
  rw [place, spare]
  cases cache.free <;> rfl

theorem free_place (cache : Cache α) (node : Node α) :
    (cache.place node).1.free = cache.free.tail := by
  rw [place]
  cases cache.free <;> rfl

theorem slab_size_place (cache : Cache α) (node : Node α) :
    (cache.place node).1.slab.size =
      if cache.free = [] then cache.slab.size + 1 else cache.slab.size := by
  rw [place]
  cases cache.free <;> simp

theorem place_unchanged (cache : Cache α) (node : Node α) :
    (cache.place node).1.limits = cache.limits ∧ (cache.place node).1.index = cache.index ∧
      (cache.place node).1.newest = cache.newest ∧ (cache.place node).1.oldest = cache.oldest ∧
      (cache.place node).1.tally = cache.tally := by
  rw [place]
  cases cache.free <;> exact ⟨rfl, rfl, rfl, rfl, rfl⟩

theorem Sound.node?_place {cache : Cache α} {chain : List Nat} (sound : Sound cache chain)
    (node : Node α) (other : Nat) :
    (cache.place node).1.node? other =
      if other = cache.spare then some node else cache.node? other := by
  rw [place, spare]
  cases free : cache.free with
  | nil =>
      simp only [node?, Array.getElem?_push, List.head?_nil, Option.getD_none]
      by_cases same : other = cache.slab.size <;> simp [same]
  | cons slot rest =>
      have within : slot < cache.slab.size := ((sound.vacant slot).mp (by simp [free])).1
      simp only [node?, Array.getElem?_setIfInBounds, eq_comm (a := slot), within, if_true,
        List.head?_cons, Option.getD_some]
      by_cases same : other = slot <;> simp [same]

theorem Sound.content?_spare {cache : Cache α} {chain : List Nat} (sound : Sound cache chain) :
    cache.content? cache.spare = none := by
  rw [spare]
  cases free : cache.free with
  | nil => simp [content?, node?]
  | cons slot rest => exact ((sound.vacant slot).mp (by simp [free])).2

theorem Sound.mem_free_tail {cache : Cache α} {chain : List Nat} (sound : Sound cache chain)
    (other : Nat) :
    other ∈ cache.free.tail ↔
      other < (if cache.free = [] then cache.slab.size + 1 else cache.slab.size) ∧
        other ≠ cache.spare ∧ cache.content? other = none := by
  rw [spare]
  cases free : cache.free with
  | nil =>
      have noneFree := sound.vacant other
      simp only [free, List.not_mem_nil, false_iff, not_and] at noneFree
      simp only [List.tail_nil, List.not_mem_nil, if_true, false_iff, List.head?_nil,
        Option.getD_none]
      rintro ⟨within, different, empty⟩
      exact noneFree (by omega) empty
  | cons slot rest =>
      have waiting := sound.waiting
      rw [free] at waiting
      have apart := (List.nodup_cons.mp waiting).1
      have members := sound.vacant other
      rw [free, List.mem_cons] at members
      simp only [List.tail_cons, reduceCtorEq, if_false, List.head?_cons, Option.getD_some]
      rw [and_left_comm, ← members]
      constructor
      · intro member
        refine ⟨?_, Or.inr member⟩
        rintro rfl
        exact apart member
      · rintro ⟨different, same | member⟩
        · exact (different same).elim
        · exact member

def filed (cache : Cache α) (key : String) (entry : Entry α) : Cache α :=
  { (cache.place ⟨key, entry, none, none⟩).1 with index := cache.index.insert key cache.spare }

theorem addNewest_eq (cache : Cache α) (key : String) (entry : Entry α) :
    cache.addNewest key entry = (cache.filed key entry).pushNewest cache.spare := by
  simp only [addNewest, filed, place_slot, place_unchanged]

theorem addNewest_relinked (cache : Cache α) (key : String) (entry : Entry α) :
    Relinked (cache.filed key entry) (cache.addNewest key entry) := by
  rw [addNewest_eq]
  exact pushNewest_relinked _ _

theorem Sound.node?_filed {cache : Cache α} {chain : List Nat} (sound : Sound cache chain)
    (key : String) (entry : Entry α) (other : Nat) :
    (cache.filed key entry).node? other =
      if other = cache.spare then some ⟨key, entry, none, none⟩ else cache.node? other :=
  sound.node?_place _ other

theorem index_addNewest (cache : Cache α) (key : String) (entry : Entry α) :
    (cache.addNewest key entry).index = cache.index.insert key cache.spare :=
  (addNewest_relinked cache key entry).index

theorem limits_addNewest (cache : Cache α) (key : String) (entry : Entry α) :
    (cache.addNewest key entry).limits = cache.limits :=
  (addNewest_relinked cache key entry).limits.trans (place_unchanged cache _).1

theorem tally_addNewest (cache : Cache α) (key : String) (entry : Entry α) :
    (cache.addNewest key entry).tally = cache.tally :=
  (addNewest_relinked cache key entry).tally.trans (place_unchanged cache _).2.2.2.2

theorem free_addNewest (cache : Cache α) (key : String) (entry : Entry α) :
    (cache.addNewest key entry).free = cache.free.tail :=
  (addNewest_relinked cache key entry).free.trans (free_place cache _)

theorem slab_size_addNewest (cache : Cache α) (key : String) (entry : Entry α) :
    (cache.addNewest key entry).slab.size =
      if cache.free = [] then cache.slab.size + 1 else cache.slab.size :=
  (addNewest_relinked cache key entry).size.trans (slab_size_place cache _)

theorem Sound.content?_addNewest {cache : Cache α} {chain : List Nat} (sound : Sound cache chain)
    (key : String) (entry : Entry α) (other : Nat) :
    (cache.addNewest key entry).content? other =
      if other = cache.spare then some (key, entry) else cache.content? other := by
  rw [(addNewest_relinked cache key entry).content]
  simp only [content?, sound.node?_filed]
  split <;> rfl

theorem Sound.chained_addNewest {cache : Cache α} {chain : List Nat} (sound : Sound cache chain)
    (key : String) (entry : Entry α) :
    Chained (cache.addNewest key entry) (cache.spare :: chain) := by
  have fresh : cache.spare ∉ chain := by
    simp [sound.live, sound.content?_spare]
  have newest : (cache.filed key entry).newest = cache.newest := (place_unchanged cache _).2.2.1
  have oldest : (cache.filed key entry).oldest = cache.oldest := (place_unchanged cache _).2.2.2.1
  have linked : Chained (cache.filed key entry) chain := by
    apply sound.chained.transfer newest oldest
    intro other member
    have different : other ≠ cache.spare := by
      rintro rfl
      exact fresh member
    rw [sound.node?_filed, if_neg different]
  rw [addNewest_eq]
  exact linked.pushNewest fresh ((sound.node?_filed key entry cache.spare).trans (if_pos rfl))

theorem Sound.addNewest {cache : Cache α} {chain : List Nat} {key : String}
    (sound : Sound cache chain) (absent : cache.index[key]? = none)
    (room : chain.length < cache.limits.capacity) (entry : Entry α) :
    Sound (cache.addNewest key entry) (cache.spare :: chain) := by
  have empty : cache.content? cache.spare = none := sound.content?_spare
  constructor
  · exact sound.chained_addNewest key entry
  · intro other
    rw [sound.content?_addNewest, List.mem_cons, sound.live]
    by_cases same : other = cache.spare <;> simp [same]
  · intro key' other
    rw [sound.content?_addNewest, index_addNewest, Std.HashMap.getElem?_insert]
    by_cases added : key = key'
    · subst key'
      by_cases same : other = cache.spare
      · simp [same]
      · simp [same, Ne.symm same, ← sound.indexed, absent]
    · by_cases same : other = cache.spare
      · simp [added, same, sound.indexed, empty]
      · simp [added, same, sound.indexed]
  · rw [free_addNewest]
    exact sound.waiting.sublist (List.tail_sublist _)
  · intro other
    rw [free_addNewest, sound.content?_addNewest, slab_size_addNewest, sound.mem_free_tail]
    by_cases same : other = cache.spare <;> simp [same]
  · rw [limits_addNewest, slab_size_addNewest]
    have size := sound.slab_size
    have bounded := sound.bounded
    split
    · rename_i none
      simp only [none, List.length_nil] at size
      omega
    · exact bounded

theorem Sound.count {cache : Cache α} {chain : List Nat} (sound : Sound cache chain)
    (tally : Tally) : Sound { cache with tally } chain := by
  constructor
  · exact sound.chained.transfer rfl rfl fun _ _ => rfl
  · exact sound.live
  · exact sound.indexed
  · exact sound.waiting
  · exact sound.vacant
  · exact sound.bounded

theorem Sound.evict {cache : Cache α} {chain : List Nat} (sound : Sound cache chain) :
    Sound cache.evict chain.dropLast := by
  rcases List.eq_nil_or_concat chain with rfl | ⟨front, slot, rfl⟩
  · have oldest : cache.oldest = none := sound.chained.oldest
    rw [Cache.evict, oldest]
    exact sound
  · rw [List.concat_eq_append] at sound ⊢
    have oldest : cache.oldest = some slot := by simp [sound.chained.oldest]
    obtain ⟨⟨key, entry⟩, held⟩ := (sound.live slot).mp (by simp)
    have removed := (sound.remove held).count (cache.remove slot).1.tally.evict
    rw [Cache.evict, oldest, List.dropLast_concat]
    simpa only [List.append_nil] using removed

theorem Sound.index_evict {cache : Cache α} {chain : List Nat} {key : String}
    (sound : Sound cache chain) (absent : cache.index[key]? = none) :
    cache.evict.index[key]? = none := by
  rw [Cache.evict]
  cases oldest : cache.oldest with
  | none => exact absent
  | some slot =>
      have member : slot ∈ chain := by
        rw [sound.chained.oldest] at oldest
        exact List.mem_of_getLast? oldest
      obtain ⟨⟨key', entry⟩, held⟩ := (sound.live slot).mp member
      simp [remove_eq held, Std.HashMap.getElem?_erase, absent]

theorem content?_overwrite {cache : Cache α} {slot : Nat} {key : String} {former : Entry α}
    (held : cache.content? slot = some (key, former)) (entry : Entry α) (other : Nat) :
    (cache.overwrite slot entry).content? other =
      if other = slot then some (key, entry) else cache.content? other := by
  obtain ⟨node, found, same⟩ := Option.map_eq_some_iff.mp held
  obtain ⟨rfl, -⟩ := Prod.mk.inj same
  simp only [content?, overwrite, node?_updateNode]
  by_cases same : other = slot
  · simp [same, found]
  · simp [same]

theorem Chained.overwrite {cache : Cache α} {chain : List Nat} (chained : Chained cache chain)
    (slot : Nat) (entry : Entry α) : Chained (cache.overwrite slot entry) chain := by
  constructor
  · exact chained.unique
  · exact chained.newest
  · exact chained.oldest
  · intro before other after split
    obtain ⟨node, found, newer, older⟩ := chained.linked before other after split
    rw [Cache.overwrite, node?_updateNode, found]
    split
    · exact ⟨_, rfl, newer, older⟩
    · exact ⟨node, rfl, newer, older⟩

theorem Sound.overwrite {cache : Cache α} {chain : List Nat} {slot : Nat} {key : String}
    {former : Entry α} (sound : Sound cache chain)
    (held : cache.content? slot = some (key, former)) (entry : Entry α) :
    Sound (cache.overwrite slot entry) chain := by
  have size : (cache.overwrite slot entry).slab.size = cache.slab.size := Array.size_modify
  constructor
  · exact sound.chained.overwrite slot entry
  · intro other
    rw [content?_overwrite held, sound.live]
    by_cases same : other = slot <;> simp [same, held]
  · intro key' other
    rw [content?_overwrite held]
    refine (sound.indexed key' other).trans ?_
    by_cases same : other = slot <;> simp [same, held]
  · exact sound.waiting
  · intro other
    rw [content?_overwrite held, size]
    refine (sound.vacant other).trans ?_
    by_cases same : other = slot <;> simp [same, held]
  · rw [size]
    exact sound.bounded

end Reckoner.Cache
