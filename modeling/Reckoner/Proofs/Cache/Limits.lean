import Reckoner.Proofs.Cache.Soundness

/-!
The limits of a cache never change, and a cache whose limits give its entries no lifetime does the
same at any time.
-/

namespace Reckoner.Cache

variable {α : Type}

theorem limits_remove (cache : Cache α) (slot : Nat) :
    (cache.remove slot).1.limits = cache.limits := by
  have detached := (detach_relinked cache slot).limits
  unfold remove
  extract_lets bare
  split <;> exact detached

theorem limits_evict (cache : Cache α) : cache.evict.limits = cache.limits := by
  unfold evict
  split
  · exact limits_remove cache _
  · rfl

theorem limits_get (cache : Cache α) (now : Nat) (key : String) :
    (cache.get now key).1.limits = cache.limits := by
  unfold get
  split
  · rfl
  · split
    · exact limits_remove cache _
    · exact (refresh_relinked _ _).limits

theorem limits_set (cache : Cache α) (now : Nat) (key : String) (value : α) :
    (cache.set now key value).limits = cache.limits := by
  unfold set
  split
  · rfl
  · extract_lets entry roomy
    split
    · exact (refresh_relinked _ _).limits
    · rw [limits_addNewest]
      unfold roomy
      split
      · exact limits_evict cache
      · rfl

section
variable {cache : Cache α} (lasting : cache.limits.lifetime = none)
include lasting

theorem isExpired_lasting (now : Nat) (slot : Nat) : cache.isExpired now slot = false := by
  unfold isExpired
  split
  · simp [Limits.isExpired, lasting]
  · rfl

theorem get_lasting (now later : Nat) (key : String) : cache.get now key = cache.get later key := by
  simp only [get, isExpired_lasting lasting]

theorem set_lasting (now later : Nat) (key : String) (value : α) :
    cache.set now key value = cache.set later key value := by
  simp only [set, Limits.entry, lasting, Option.map_none]

end

end Reckoner.Cache
