import Reckoner.Proofs.Cache.Contents
import Reckoner.Proofs.Cache.Soundness
import Reckoner.Proofs.Cache.Usage

/-!
A cache is a recency list. A sound cache stands for the list of what its slots hold, in the order of
its chain, and each operation does to the cache what it does to the list. So along every run the two
give the same answers and show the same keys and figures.
-/

namespace Reckoner.Cache

variable {α : Type}

/-- Whether a cache is sound and holds the entries of a list in the order of its chain. -/
structure Represents (cache : Cache α) (chain : List Nat) (recency : Recency α) : Prop where
  sound : Sound cache chain
  limits : recency.limits = cache.limits
  entries : recency.entries = cache.listing chain
  tally : recency.tally = cache.tally

theorem Recency.find?_eq_none {recency : Recency α} {key : String}
    (apart : ∀ entry ∈ recency.entries, entry.1 ≠ key) : recency.find? key = none := by
  apply List.lookup_eq_none_iff.mpr
  intro entry member
  simpa [bne_iff_ne] using (apart entry member).symm

theorem Recency.find?_split {recency : Recency α} {front back : List (String × Entry α)}
    {key : String} {entry : Entry α} (split : recency.entries = front ++ (key, entry) :: back)
    (apart : ∀ entry ∈ front ++ back, entry.1 ≠ key) : recency.find? key = some entry := by
  have missing : front.lookup key = none := by
    apply List.lookup_eq_none_iff.mpr
    intro other member
    simpa [bne_iff_ne] using (apart other (List.mem_append_left back member)).symm
  simp [Recency.find?, split, List.lookup_append, missing]

theorem Recency.without_split {recency : Recency α} {front back : List (String × Entry α)}
    {key : String} {entry : Entry α} (split : recency.entries = front ++ (key, entry) :: back)
    (apart : ∀ entry ∈ front ++ back, entry.1 ≠ key) : recency.without key = front ++ back := by
  rw [Recency.without, split, List.filter_append, List.filter_cons_of_neg (by simp),
    ← List.filter_append]
  apply List.filter_eq_self.mpr
  intro other member
  simpa using apart other member

theorem Represents.find?_absent {cache : Cache α} {chain : List Nat} {recency : Recency α}
    {key : String} (represents : Represents cache chain recency)
    (absent : cache.index[key]? = none) : recency.find? key = none := by
  apply Recency.find?_eq_none
  rw [represents.entries]
  rintro entry member rfl
  obtain ⟨slot, found⟩ := (represents.sound.mem_keys entry.1).mp (List.mem_map_of_mem member)
  simp [found] at absent

theorem Represents.split {cache : Cache α} {chain : List Nat} {recency : Recency α}
    {key : String} {slot : Nat} (represents : Represents cache chain recency)
    (found : cache.index[key]? = some slot) :
    ∃ before after entry, chain = before ++ slot :: after ∧
      cache.content? slot = some (key, entry) ∧
      recency.entries = cache.listing before ++ (key, entry) :: cache.listing after ∧
      ∀ entry ∈ cache.listing before ++ cache.listing after, entry.1 ≠ key := by
  have sound := represents.sound
  obtain ⟨entry, held⟩ := (sound.indexed key slot).mp found
  obtain ⟨before, after, rfl⟩ := List.append_of_mem ((sound.live slot).mpr ⟨_, held⟩)
  have entries := represents.entries
  have unique := sound.keys_nodup
  rw [listing_append, listing_cons held] at entries unique
  rw [List.map_append, List.map_cons] at unique
  have apart := not_mem_of_split unique
  rw [← not_or, ← List.mem_append, ← List.map_append] at apart
  refine ⟨before, after, entry, rfl, held, entries, ?_⟩
  intro other member same
  exact apart (List.mem_map.mpr ⟨other, member, same⟩)

theorem isExpired_eq {cache : Cache α} {slot : Nat} {key : String} {entry : Entry α}
    (held : cache.content? slot = some (key, entry)) (now : Nat) :
    cache.isExpired now slot = cache.limits.isExpired now entry := by
  obtain ⟨node, found, same⟩ := Option.map_eq_some_iff.mp held
  obtain ⟨-, rfl⟩ := Prod.mk.inj same
  simp [isExpired, found]

theorem listing_outside {cache other : Cache α} {slots : List Nat} {slot : Nat}
    (outside : slot ∉ slots)
    (agree : ∀ place ≠ slot, other.content? place = cache.content? place) :
    other.listing slots = cache.listing slots := by
  apply List.filterMap_congr
  intro place member
  apply agree
  rintro rfl
  exact outside member

theorem Represents.remove {cache : Cache α} {before after : List Nat} {slot : Nat} {key : String}
    {entry : Entry α} {recency : Recency α}
    (represents : Represents cache (before ++ slot :: after) recency)
    (held : cache.content? slot = some (key, entry)) :
    Represents (cache.remove slot).1 (before ++ after)
      { recency with entries := cache.listing before ++ cache.listing after } := by
  have apart := not_mem_of_split represents.sound.chained.unique
  constructor
  · exact represents.sound.remove held
  · rw [remove_eq held]
    exact represents.limits.trans (detach_relinked cache slot).limits.symm
  · have kept (place : Nat) (different : place ≠ slot) :
        (cache.remove slot).1.content? place = cache.content? place := by
      rw [content?_remove held, if_neg different]
    rw [listing_append, listing_outside apart.1 kept, listing_outside apart.2 kept]
  · rw [remove_eq held]
    exact represents.tally.trans (detach_relinked cache slot).tally.symm

theorem Represents.refresh {cache : Cache α} {before after : List Nat} {slot : Nat}
    {entry : String × Entry α} {recency : Recency α}
    (represents : Represents cache (before ++ slot :: after) recency)
    (held : cache.content? slot = some entry) :
    Represents (cache.refresh slot) (slot :: (before ++ after))
      { recency with entries := entry :: (cache.listing before ++ cache.listing after) } := by
  have relinked := refresh_relinked cache slot
  constructor
  · exact represents.sound.refresh
  · exact represents.limits.trans relinked.limits.symm
  · rw [← listing_append, ← listing_cons held]
    exact (listing_congr fun other _ => by rw [relinked.content]).symm
  · exact represents.tally.trans relinked.tally.symm

theorem Represents.count {cache : Cache α} {chain : List Nat} {recency : Recency α}
    (represents : Represents cache chain recency) (change : Tally → Tally) :
    Represents { cache with tally := change cache.tally } chain
      { recency with tally := change recency.tally } :=
  ⟨represents.sound.count _, represents.limits, represents.entries,
    congrArg change represents.tally⟩

theorem value_of_content {cache : Cache α} {slot : Nat} {key : String} {entry : Entry α}
    (held : cache.content? slot = some (key, entry)) :
    (cache.node? slot).map (fun node => node.entry.value) = some entry.value := by
  obtain ⟨node, found, same⟩ := Option.map_eq_some_iff.mp held
  obtain ⟨-, rfl⟩ := Prod.mk.inj same
  simp [found]

theorem Represents.get {cache : Cache α} {chain : List Nat} {recency : Recency α}
    (represents : Represents cache chain recency) (now : Nat) (key : String) :
    (∃ order, Represents (cache.get now key).1 order (recency.get now key).1) ∧
      (cache.get now key).2 = (recency.get now key).2 := by
  cases found : cache.index[key]? with
  | none =>
      simp only [Cache.get, found, Recency.get, represents.find?_absent found]
      exact ⟨⟨chain, represents.count Tally.miss⟩, trivial⟩
  | some slot =>
      obtain ⟨before, after, entry, rfl, held, entries, apart⟩ := represents.split found
      have present := Recency.find?_split entries apart
      have others := Recency.without_split entries apart
      have expiry : cache.isExpired now slot = recency.limits.isExpired now entry := by
        rw [isExpired_eq held, represents.limits]
      simp only [Cache.get, found, Recency.get, present, others, expiry, Recency.isOld_eq]
      by_cases expired : recency.limits.isExpired now entry = true
      · simp only [if_pos expired]
        exact ⟨⟨_, (represents.remove held).count Tally.expire⟩, trivial⟩
      · simp only [if_neg expired]
        refine ⟨⟨_, (represents.count Tally.hit).refresh held⟩, ?_⟩
        apply value_of_content
        rw [(refresh_relinked _ slot).content]
        exact held

theorem listing_overwrite {cache : Cache α} {slots : List Nat} {slot : Nat} {key : String}
    {former : Entry α} (held : cache.content? slot = some (key, former)) (entry : Entry α)
    (outside : slot ∉ slots) :
    (cache.overwrite slot entry).listing slots = cache.listing slots := by
  apply listing_outside outside
  intro place different
  rw [content?_overwrite held, if_neg different]

theorem Represents.overwrite {cache : Cache α} {before after : List Nat} {slot : Nat} {key : String}
    {former : Entry α} {recency : Recency α}
    (represents : Represents cache (before ++ slot :: after) recency)
    (held : cache.content? slot = some (key, former)) (entry : Entry α) :
    Represents (cache.overwrite slot entry) (before ++ slot :: after)
      { recency with entries := cache.listing before ++ (key, entry) :: cache.listing after } := by
  have apart := not_mem_of_split represents.sound.chained.unique
  constructor
  · exact represents.sound.overwrite held entry
  · exact represents.limits
  · have here : (cache.overwrite slot entry).content? slot = some (key, entry) := by
      rw [content?_overwrite held, if_pos rfl]
    rw [listing_append, listing_cons here, listing_overwrite held entry apart.1,
      listing_overwrite held entry apart.2]
  · exact represents.tally

theorem Represents.addNewest {cache : Cache α} {chain : List Nat} {recency : Recency α}
    {key : String} (represents : Represents cache chain recency)
    (absent : cache.index[key]? = none) (room : chain.length < cache.limits.capacity)
    (entry : Entry α) :
    Represents (cache.addNewest key entry) (cache.spare :: chain)
      { recency with entries := (key, entry) :: recency.entries } := by
  have sound := represents.sound
  have fresh : cache.spare ∉ chain := by
    simp [sound.live, sound.content?_spare]
  constructor
  · exact sound.addNewest absent room entry
  · exact represents.limits.trans (limits_addNewest cache key entry).symm
  · have here : (cache.addNewest key entry).content? cache.spare = some (key, entry) := by
      rw [sound.content?_addNewest, if_pos rfl]
    have kept (place : Nat) (different : place ≠ cache.spare) :
        (cache.addNewest key entry).content? place = cache.content? place := by
      rw [sound.content?_addNewest, if_neg different]
    rw [listing_cons here, represents.entries, listing_outside fresh kept]
  · exact represents.tally.trans (tally_addNewest cache key entry).symm

theorem Represents.evict {cache : Cache α} {chain : List Nat} {recency : Recency α}
    (represents : Represents cache chain recency) (nonempty : chain ≠ []) :
    Represents cache.evict chain.dropLast
      { recency with entries := recency.entries.dropLast, tally := recency.tally.evict } := by
  obtain ⟨front, slot, rfl⟩ : ∃ front slot, chain = front ++ [slot] :=
    ⟨_, _, (List.dropLast_concat_getLast nonempty).symm⟩
  have sound := represents.sound
  have oldest : cache.oldest = some slot := by simp [sound.chained.oldest]
  obtain ⟨⟨key, entry⟩, held⟩ := (sound.live slot).mp (by simp)
  have entries := represents.entries
  rw [listing_append, listing_cons held] at entries
  have removed := (represents.remove held).count Tally.evict
  simp only [Cache.evict, oldest]
  simpa [entries, listing] using removed

theorem Represents.addToFull {cache : Cache α} {chain : List Nat} {recency : Recency α}
    {key : String} (represents : Represents cache chain recency)
    (absent : cache.index[key]? = none) (full : recency.limits.capacity ≤ chain.length)
    (opened : recency.limits.capacity ≠ 0) (entry : Entry α) :
    ∃ order, Represents (cache.evict.addNewest key entry) order
      { recency with
        entries := (key, entry) :: recency.entries.dropLast, tally := recency.tally.evict } := by
  have sound := represents.sound
  have bounded := Nat.le_trans sound.chained.length_le sound.bounded
  rw [← represents.limits] at bounded
  have nonempty : chain ≠ [] := by
    rintro rfl
    simp only [List.length_nil] at full
    omega
  have evicted := represents.evict nonempty
  have room : chain.dropLast.length < cache.evict.limits.capacity := by
    rw [← evicted.limits, List.length_dropLast]
    simp only
    omega
  exact ⟨_, evicted.addNewest (sound.index_evict absent) room entry⟩

theorem Represents.replace {cache : Cache α} {before after : List Nat} {slot : Nat} {key : String}
    {former : Entry α} {recency : Recency α}
    (represents : Represents cache (before ++ slot :: after) recency)
    (held : cache.content? slot = some (key, former)) (entry : Entry α) :
    Represents ((cache.overwrite slot entry).refresh slot) (slot :: (before ++ after))
      { recency with
        entries := (key, entry) :: (cache.listing before ++ cache.listing after) } := by
  have here : (cache.overwrite slot entry).content? slot = some (key, entry) := by
    rw [content?_overwrite held, if_pos rfl]
  have refreshed := (represents.overwrite held entry).refresh here
  have outside := not_mem_of_split represents.sound.chained.unique
  rw [listing_overwrite held _ outside.1, listing_overwrite held _ outside.2] at refreshed
  exact refreshed

theorem Represents.set {cache : Cache α} {chain : List Nat} {recency : Recency α}
    (represents : Represents cache chain recency) (now : Nat) (key : String) (value : α) :
    ∃ order, Represents (cache.set now key value) order (recency.set now key value) := by
  have sound := represents.sound
  have count : recency.entries.length = cache.index.size := by
    rw [represents.entries, sound.listing_length, sound.index_size]
  rw [Cache.set, Recency.set, Recency.entry_eq, ← represents.limits, count]
  by_cases closed : recency.limits.capacity = 0
  · simp only [if_pos closed]
    exact ⟨chain, represents⟩
  · simp only [if_neg closed]
    cases found : cache.index[key]? with
    | none =>
        simp only [represents.find?_absent found, sound.index_size]
        by_cases full : recency.limits.capacity ≤ chain.length
        · simp only [if_pos full]
          exact represents.addToFull found full closed _
        · simp only [if_neg full]
          have room : chain.length < cache.limits.capacity := by
            rw [← represents.limits]
            omega
          exact ⟨_, represents.addNewest found room _⟩
    | some slot =>
        obtain ⟨before, after, entry, rfl, held, entries, apart⟩ := represents.split found
        have present := Recency.find?_split entries apart
        have others := Recency.without_split entries apart
        simp only [present, others]
        exact ⟨_, represents.replace held _⟩

theorem Represents.has {cache : Cache α} {chain : List Nat} {recency : Recency α}
    (represents : Represents cache chain recency) (now : Nat) (key : String) :
    cache.has now key = recency.has now key := by
  cases found : cache.index[key]? with
  | none => simp only [Cache.has, found, Recency.has, represents.find?_absent found]
  | some slot =>
      obtain ⟨before, after, entry, rfl, held, entries, apart⟩ := represents.split found
      have present := Recency.find?_split entries apart
      simp only [Cache.has, found, Recency.has, present, isExpired_eq held, represents.limits,
        Recency.isOld_eq]

theorem Represents.delete {cache : Cache α} {chain : List Nat} {recency : Recency α}
    (represents : Represents cache chain recency) (key : String) :
    (∃ order, Represents (cache.delete key).1 order (recency.delete key).1) ∧
      (cache.delete key).2 = (recency.delete key).2 := by
  cases found : cache.index[key]? with
  | none =>
      simp only [Cache.delete, found, Recency.delete, represents.find?_absent found]
      exact ⟨⟨chain, represents⟩, trivial⟩
  | some slot =>
      obtain ⟨before, after, entry, rfl, held, entries, apart⟩ := represents.split found
      have present := Recency.find?_split entries apart
      have others := Recency.without_split entries apart
      simp only [Cache.delete, found, Recency.delete, present, others]
      refine ⟨⟨_, represents.remove held⟩, ?_⟩
      simp [remove_eq held]

theorem Represents.clear {cache : Cache α} {chain : List Nat} {recency : Recency α}
    (represents : Represents cache chain recency) : Represents cache.clear [] recency.clear :=
  ⟨clear_sound cache, represents.limits, rfl, represents.tally⟩

theorem Represents.keys_eq {cache : Cache α} {chain : List Nat} {recency : Recency α}
    (represents : Represents cache chain recency) : cache.keys = recency.keys := by
  rw [Cache.keys, Recency.keys, represents.sound.chained.nodes_eq, represents.entries, listing]
  simp [content?, List.map_filterMap, Function.comp_def]

def contents (cache : Cache α) : List (String × Entry α) :=
  cache.nodes.map fun node => (node.key, node.entry)

theorem Represents.contents_eq {cache : Cache α} {chain : List Nat} {recency : Recency α}
    (represents : Represents cache chain recency) : cache.contents = recency.entries := by
  rw [contents, represents.sound.chained.nodes_eq, represents.entries, listing,
    List.map_filterMap]
  rfl

theorem Represents.stats_eq {cache : Cache α} {chain : List Nat} {recency : Recency α}
    (represents : Represents cache chain recency) : cache.stats = recency.stats := by
  simp only [Cache.stats, Cache.size, Recency.stats, represents.limits, represents.entries,
    represents.tally, represents.sound.listing_length, represents.sound.index_size]

theorem new_represents (limits : Limits) :
    Represents (new limits : Cache α) [] (Recency.new limits) :=
  ⟨new_sound limits, rfl, rfl, rfl⟩

def InStep (session : Session (Cache α)) (plain : Session (Recency α)) : Prop :=
  (∃ chain, Represents session.memory chain plain.memory) ∧ session.now = plain.now

theorem InStep.step {session : Session (Cache α)} {plain : Session (Recency α)}
    (inStep : InStep session plain) (action : Action α) :
    InStep ((operations α).step session action).1 ((Recency.operations α).step plain action).1 ∧
      ((operations α).step session action).2 = ((Recency.operations α).step plain action).2 := by
  obtain ⟨cache, now⟩ := session
  obtain ⟨recency, now'⟩ := plain
  obtain ⟨⟨chain, represents⟩, time⟩ := inStep
  change now = now' at time
  subst now'
  cases action with
  | set key value => exact ⟨⟨represents.set now key value, rfl⟩, rfl⟩
  | get key =>
      obtain ⟨next, answer⟩ := represents.get now key
      exact ⟨⟨next, rfl⟩, congrArg Answer.found answer⟩
  | has key => exact ⟨⟨⟨chain, represents⟩, rfl⟩, congrArg Answer.verdict (represents.has now key)⟩
  | delete key =>
      obtain ⟨next, answer⟩ := represents.delete key
      exact ⟨⟨next, rfl⟩, congrArg Answer.found answer⟩
  | clear => exact ⟨⟨⟨[], represents.clear⟩, rfl⟩, rfl⟩
  | clock now => exact ⟨⟨⟨chain, represents⟩, rfl⟩, rfl⟩

end Reckoner.Cache
