import Reckoner.Cache.Limits
import Reckoner.Cache.Stats

/-!
The recency list: the plain form of a cache. Its entries stand in one list from the most to the
least recently used. A hit and a store move an entry to the front, and a store of a new key in a
full list drops the last entry.
-/

namespace Reckoner.Cache

structure Recency (α : Type) where
  limits : Limits
  entries : List (String × Entry α)
  tally : Tally

namespace Recency

variable {α : Type}

def new (limits : Limits) : Recency α :=
  ⟨limits, [], .zero⟩

def find? (recency : Recency α) (key : String) : Option (Entry α) :=
  recency.entries.lookup key

def without (recency : Recency α) (key : String) : List (String × Entry α) :=
  recency.entries.filter fun entry => entry.1 != key

def entry (recency : Recency α) (now : Nat) (value : α) : Entry α :=
  ⟨value, if recency.limits.lifetime.isSome then some now else none⟩

def isOld (recency : Recency α) (now : Nat) (entry : Entry α) : Bool :=
  match recency.limits.lifetime, entry.stored with
  | some lifetime, some stored => stored + lifetime < now
  | _, _ => false

def get (recency : Recency α) (now : Nat) (key : String) : Recency α × Option α :=
  match recency.find? key with
  | none => ({ recency with tally := recency.tally.miss }, none)
  | some entry =>
      if recency.isOld now entry then
        ({ recency with entries := recency.without key, tally := recency.tally.expire }, none)
      else
        ({ recency with
            entries := (key, entry) :: recency.without key
            tally := recency.tally.hit }, some entry.value)

def set (recency : Recency α) (now : Nat) (key : String) (value : α) : Recency α :=
  if recency.limits.capacity = 0 then recency
  else
    let entry := recency.entry now value
    match recency.find? key with
    | some _ => { recency with entries := (key, entry) :: recency.without key }
    | none =>
        if recency.limits.capacity ≤ recency.entries.length then
          { recency with
            entries := (key, entry) :: recency.entries.dropLast
            tally := recency.tally.evict }
        else { recency with entries := (key, entry) :: recency.entries }

def has (recency : Recency α) (now : Nat) (key : String) : Bool :=
  match recency.find? key with
  | some entry => !recency.isOld now entry
  | none => false

def delete (recency : Recency α) (key : String) : Recency α × Option α :=
  match recency.find? key with
  | some entry => ({ recency with entries := recency.without key }, some entry.value)
  | none => (recency, none)

def clear (recency : Recency α) : Recency α :=
  { recency with entries := [] }

def keys (recency : Recency α) : List String :=
  recency.entries.map (·.1)

def stats (recency : Recency α) : Stats :=
  ⟨recency.tally, recency.entries.length, recency.limits.capacity⟩

end Recency

end Reckoner.Cache
