import Reckoner.Proofs.Cache.Refinement

/-!
The order of the keys in a recency list. To find a key and to store one do the same to that order:
the key goes to the front, and of the others as many stay behind it as there is room for. So the
keys of a list with little room are always the first keys of a list with more.
-/

namespace Reckoner.Cache

variable {α : Type}

/-- The order of some keys after one of them, or a new one, has been used, with room for
`capacity` keys. -/
def promote (capacity : Nat) (key : String) (keys : List String) : List String :=
  (key :: keys.filter fun other => other != key).take capacity

theorem filter_eq_self_of_not_mem {keys : List String} {key : String} (absent : key ∉ keys) :
    (keys.filter fun other => other != key) = keys := by
  apply List.filter_eq_self.mpr
  intro other member
  simp only [bne_iff_ne]
  rintro rfl
  exact absent member

theorem length_filter_lt {keys : List String} {key : String} (present : key ∈ keys) :
    (keys.filter fun other => other != key).length < keys.length := by
  apply List.length_filter_lt_length_iff_exists.mpr
  exact ⟨key, present, by simp⟩

theorem promote_of_mem {capacity : Nat} {key : String} {keys : List String}
    (bounded : keys.length ≤ capacity) (present : key ∈ keys) :
    promote capacity key keys = key :: keys.filter fun other => other != key := by
  have shorter := length_filter_lt present
  apply List.take_of_length_le
  rw [List.length_cons]
  omega

theorem promote_of_not_mem {capacity : Nat} {key : String} {keys : List String}
    (absent : key ∉ keys) : promote capacity key keys = (key :: keys).take capacity := by
  rw [promote, filter_eq_self_of_not_mem absent]

theorem take_filter_take {keys : List String} (distinct : keys.Nodup) (key : String)
    (count : Nat) :
    ((keys.take (count + 1)).filter fun other => other != key).take count =
      (keys.filter fun other => other != key).take count := by
  induction keys generalizing count with
  | nil => rfl
  | cons first rest ih =>
      obtain ⟨apart, distinct⟩ := List.nodup_cons.mp distinct
      by_cases same : first = key
      · subst same
        have apart' : first ∉ rest.take count := fun member => apart (List.mem_of_mem_take member)
        simp [filter_eq_self_of_not_mem apart, filter_eq_self_of_not_mem apart', List.take_take]
      · cases count with
        | zero => simp
        | succ count => simp [same, ih distinct]

theorem promote_take {least most : Nat} (order : least ≤ most) {keys : List String}
    (distinct : keys.Nodup) (key : String) :
    promote least key (keys.take least) = (promote most key keys).take least := by
  rw [promote, promote, List.take_take, Nat.min_eq_left order]
  cases least with
  | zero => rfl
  | succ count => rw [List.take_succ_cons, List.take_succ_cons, take_filter_take distinct]

namespace Recency

variable {recency : Recency α}

theorem mem_keys_iff {key : String} :
    key ∈ recency.keys ↔ ∃ entry, recency.find? key = some entry := by
  rw [← Option.isSome_iff_exists, find?, keys]
  induction recency.entries with
  | nil => simp
  | cons held rest ih =>
      by_cases same : key = held.1
      · simp [same]
      · simp [same, ih]

theorem find?_eq_none_iff {key : String} : recency.find? key = none ↔ key ∉ recency.keys := by
  rw [mem_keys_iff, Option.eq_none_iff_forall_ne_some, not_exists]

theorem keys_without (key : String) :
    (recency.without key).map (·.1) = recency.keys.filter fun other => other != key := by
  rw [without, keys, List.filter_map]
  rfl

theorem keys_get_of_mem {now : Nat} {key : String} {value : α}
    (found : (recency.get now key).2 = some value)
    (bounded : recency.entries.length ≤ recency.limits.capacity) :
    (recency.get now key).1.keys = promote recency.limits.capacity key recency.keys := by
  rw [get] at found ⊢
  cases held : recency.find? key with
  | none => simp [held] at found
  | some entry =>
      simp only [held] at found ⊢
      split at found
      · contradiction
      · rename_i fresh
        have present : key ∈ recency.keys := mem_keys_iff.mpr ⟨entry, held⟩
        rw [promote_of_mem (by simpa [keys] using bounded) present, ← keys_without, if_neg fresh]
        rfl

theorem keys_set (recency : Recency α) (now : Nat) (key : String) (value : α)
    (bounded : recency.entries.length ≤ recency.limits.capacity) :
    (recency.set now key value).keys = promote recency.limits.capacity key recency.keys := by
  have length : recency.keys.length = recency.entries.length := List.length_map _
  rw [set]
  split
  · rename_i closed
    have empty : recency.entries = [] := List.length_eq_zero_iff.mp (by omega)
    simp [promote, keys, empty, closed]
  · rename_i opened
    cases held : recency.find? key with
    | some former =>
        have present : key ∈ recency.keys := mem_keys_iff.mpr ⟨former, held⟩
        rw [promote_of_mem (by omega) present, ← keys_without]
        rfl
    | none =>
        rw [promote_of_not_mem (find?_eq_none_iff.mp held)]
        obtain ⟨count, room⟩ := Nat.exists_eq_succ_of_ne_zero opened
        simp only
        split
        · rename_i full
          have last : recency.entries.length - 1 = count := by omega
          simp [keys, room, List.dropLast_eq_take, List.map_take, last]
        · rw [List.take_of_length_le (by rw [List.length_cons]; omega)]
          rfl

theorem get_of_mem (lasting : recency.limits.lifetime = none) {key : String}
    (present : key ∈ recency.keys) (now : Nat) :
    ∃ entry, recency.get now key = ({ recency with
        entries := (key, entry) :: recency.without key
        tally := recency.tally.hit }, some entry.value) := by
  obtain ⟨entry, held⟩ := mem_keys_iff.mp present
  have fresh : recency.limits.isExpired now entry = false := by simp [Limits.isExpired, lasting]
  exact ⟨entry, by simp [get, held, fresh]⟩

theorem get_of_not_mem {key : String} (absent : key ∉ recency.keys) (now : Nat) :
    recency.get now key = ({ recency with tally := recency.tally.miss }, none) := by
  simp [get, find?_eq_none_iff.mpr absent]

theorem set_frame (recency : Recency α) (now : Nat) (key : String) (value : α) :
    (recency.set now key value).limits = recency.limits ∧
      (recency.set now key value).tally.hits = recency.tally.hits ∧
      (recency.set now key value).tally.misses = recency.tally.misses := by
  rw [set]
  split
  · exact ⟨rfl, rfl, rfl⟩
  · cases recency.find? key with
    | some former => exact ⟨rfl, rfl, rfl⟩
    | none =>
        dsimp only
        split <;> exact ⟨rfl, rfl, rfl⟩

end Recency

theorem Represents.bounded {cache : Cache α} {chain : List Nat} {recency : Recency α}
    (represents : Represents cache chain recency) :
    recency.entries.length ≤ recency.limits.capacity := by
  have sound := represents.sound
  rw [represents.entries, sound.listing_length, represents.limits]
  exact Nat.le_trans sound.chained.length_le sound.bounded

theorem Represents.distinct {cache : Cache α} {chain : List Nat} {recency : Recency α}
    (represents : Represents cache chain recency) : recency.keys.Nodup := by
  rw [Recency.keys, represents.entries]
  exact represents.sound.keys_nodup

end Reckoner.Cache
