import Reckoner.Cache.Limits
import Reckoner.Cache.Stats
import Reckoner.Text.Quoted
import Std.Data.HashMap

/-!
Caches: bounded memories that forget what was used longest ago. Entries live in the slots of a slab
and are linked from the most to the least recently used; an index leads from a key to its slot, and
slots that have become empty wait in a list for reuse. No operation looks at more than a few slots.
-/

namespace Reckoner

/-- What a slot holds: a key with its entry, and the slots of the next newer and next older. -/
structure Cache.Node (α : Type) where
  key : String
  entry : Cache.Entry α
  newer : Option Nat
  older : Option Nat

structure Cache (α : Type) where
  limits : Cache.Limits
  index : Std.HashMap String Nat
  slab : Array (Option (Cache.Node α))
  free : List Nat
  newest : Option Nat
  oldest : Option Nat
  tally : Cache.Tally

namespace Cache

variable {α : Type}

def new (limits : Limits) : Cache α :=
  { limits, index := {}, slab := #[], free := [], newest := none, oldest := none, tally := .zero }

def node? (cache : Cache α) (slot : Nat) : Option (Node α) :=
  cache.slab[slot]?.join

def updateNode (cache : Cache α) (slot : Nat) (change : Node α → Node α) : Cache α :=
  { cache with slab := cache.slab.modify slot (Option.map change) }

def setOlder (cache : Cache α) (slot : Nat) (older : Option Nat) : Cache α :=
  cache.updateNode slot fun node => { node with older }

def setNewer (cache : Cache α) (slot : Nat) (newer : Option Nat) : Cache α :=
  cache.updateNode slot fun node => { node with newer }

def linkOlder (cache : Cache α) (slot older : Option Nat) : Cache α :=
  match slot with
  | some slot => cache.setOlder slot older
  | none => { cache with newest := older }

def linkNewer (cache : Cache α) (slot newer : Option Nat) : Cache α :=
  match slot with
  | some slot => cache.setNewer slot newer
  | none => { cache with oldest := newer }

def detach (cache : Cache α) (slot : Nat) : Cache α :=
  match cache.node? slot with
  | none => cache
  | some node =>
      let bridged := (cache.linkOlder node.newer node.older).linkNewer node.older node.newer
      bridged.updateNode slot fun node => { node with newer := none, older := none }

def pushNewest (cache : Cache α) (slot : Nat) : Cache α :=
  let linked := cache.updateNode slot fun node => { node with newer := none, older := cache.newest }
  let linked := match cache.newest with
    | some former => linked.setNewer former (some slot)
    | none => linked
  { linked with newest := some slot, oldest := linked.oldest.or (some slot) }

def refresh (cache : Cache α) (slot : Nat) : Cache α :=
  (cache.detach slot).pushNewest slot

def remove (cache : Cache α) (slot : Nat) : Cache α × Option (Entry α) :=
  let cache := cache.detach slot
  match cache.node? slot with
  | none => (cache, none)
  | some node =>
      ({ cache with
          slab := cache.slab.setIfInBounds slot none
          index := cache.index.erase node.key
          free := slot :: cache.free }, some node.entry)

def isExpired (cache : Cache α) (now : Nat) (slot : Nat) : Bool :=
  match cache.node? slot with
  | some node => cache.limits.isExpired now node.entry
  | none => false

/-- Looks a key up. An entry past its lifetime is dropped and counts as missing. -/
def get (cache : Cache α) (now : Nat) (key : String) : Cache α × Option α :=
  match cache.index[key]? with
  | none => ({ cache with tally := cache.tally.miss }, none)
  | some slot =>
      if cache.isExpired now slot then
        let removed := (cache.remove slot).1
        ({ removed with tally := removed.tally.expire }, none)
      else
        let found := { cache with tally := cache.tally.hit }.refresh slot
        (found, (found.node? slot).map fun node => node.entry.value)

def evict (cache : Cache α) : Cache α :=
  match cache.oldest with
  | some slot =>
      let removed := (cache.remove slot).1
      { removed with tally := removed.tally.evict }
  | none => cache

def place (cache : Cache α) (node : Node α) : Cache α × Nat :=
  match cache.free with
  | slot :: free => ({ cache with slab := cache.slab.setIfInBounds slot (some node), free }, slot)
  | [] => ({ cache with slab := cache.slab.push (some node) }, cache.slab.size)

def overwrite (cache : Cache α) (slot : Nat) (entry : Entry α) : Cache α :=
  cache.updateNode slot fun node => { node with entry }

def addNewest (cache : Cache α) (key : String) (entry : Entry α) : Cache α :=
  let (placed, slot) := cache.place { key, entry, newer := none, older := none }
  { placed with index := placed.index.insert key slot }.pushNewest slot

def set (cache : Cache α) (now : Nat) (key : String) (value : α) : Cache α :=
  if cache.limits.capacity = 0 then cache
  else
    let entry := cache.limits.entry now value
    match cache.index[key]? with
    | some slot => (cache.overwrite slot entry).refresh slot
    | none =>
        let roomy := if cache.limits.capacity ≤ cache.index.size then cache.evict else cache
        roomy.addNewest key entry

def has (cache : Cache α) (now : Nat) (key : String) : Bool :=
  match cache.index[key]? with
  | some slot => !cache.isExpired now slot
  | none => false

def delete (cache : Cache α) (key : String) : Cache α × Option α :=
  match cache.index[key]? with
  | some slot =>
      let (removed, entry) := cache.remove slot
      (removed, entry.map (·.value))
  | none => (cache, none)

def clear (cache : Cache α) : Cache α :=
  { cache with index := {}, slab := #[], free := [], newest := none, oldest := none }

def size (cache : Cache α) : Nat :=
  cache.index.size

def chainFrom (cache : Cache α) : Nat → Option Nat → List (Node α)
  | 0, _ => []
  | _, none => []
  | bound + 1, some slot =>
      match cache.node? slot with
      | some node => node :: cache.chainFrom bound node.older
      | none => []

def nodes (cache : Cache α) : List (Node α) :=
  cache.chainFrom cache.slab.size cache.newest

def keys (cache : Cache α) : List String :=
  cache.nodes.map (·.key)

def stats (cache : Cache α) : Stats :=
  ⟨cache.tally, cache.size, cache.limits.capacity⟩

def outline (cache : Cache α) : String :=
  "LruCache \x7b keys: [" ++ ", ".intercalate (cache.keys.map Text.quoted) ++ "], options: " ++
    cache.limits.outline ++ ", stats: " ++ cache.stats.outline ++ " \x7d"

end Cache

end Reckoner
