import Reckoner.Cache.Recency

/-!
What a recency list holds: after an operation only what it held before and, after a store, the entry
that was stored. What is found in it is held by it.
-/

namespace Reckoner.Cache.Recency

variable {α : Type} {recency : Recency α}

@[simp] theorem entry_eq (recency : Recency α) (now : Nat) (value : α) :
    recency.entry now value = recency.limits.entry now value := by
  unfold entry Limits.entry
  cases recency.limits.lifetime <;> rfl

@[simp] theorem isOld_eq (recency : Recency α) (now : Nat) (entry : Entry α) :
    recency.isOld now entry = recency.limits.isExpired now entry := by
  unfold isOld Limits.isExpired
  cases recency.limits.lifetime <;> cases entry.stored <;> grind

theorem mem_of_find? {key : String} {entry : Entry α} (found : recency.find? key = some entry) :
    (key, entry) ∈ recency.entries := by
  obtain ⟨before, after, split, _⟩ := List.lookup_eq_some_iff.mp found
  simp [split]

theorem mem_of_mem_without {key : String} {held : String × Entry α}
    (member : held ∈ recency.without key) : held ∈ recency.entries :=
  (List.mem_filter.mp member).1

theorem mem_of_mem_get {now : Nat} {key : String} {held : String × Entry α}
    (member : held ∈ (recency.get now key).1.entries) : held ∈ recency.entries := by
  rw [get] at member
  cases found : recency.find? key with
  | none => simpa [found] using member
  | some entry =>
      simp only [found] at member
      split at member
      · exact mem_of_mem_without member
      · rcases List.mem_cons.mp member with first | later
        · exact first ▸ mem_of_find? found
        · exact mem_of_mem_without later

theorem mem_of_get {now : Nat} {key : String} {value : α}
    (answered : (recency.get now key).2 = some value) :
    ∃ entry, (key, entry) ∈ recency.entries ∧ entry.value = value := by
  rw [get] at answered
  cases found : recency.find? key with
  | none => simp [found] at answered
  | some entry =>
      simp only [found] at answered
      split at answered
      · contradiction
      · exact ⟨entry, mem_of_find? found, Option.some.inj answered⟩

theorem mem_of_mem_set {now : Nat} {key : String} {value : α} {held : String × Entry α}
    (member : held ∈ (recency.set now key value).entries) :
    held = (key, recency.limits.entry now value) ∨ held ∈ recency.entries := by
  rw [set, entry_eq] at member
  split at member
  · exact Or.inr member
  · cases found : recency.find? key with
    | some former =>
        simp only [found, List.mem_cons] at member
        exact member.imp_right mem_of_mem_without
    | none =>
        simp only [found] at member
        split at member
        · exact (List.mem_cons.mp member).imp_right fun earlier => List.dropLast_subset _ earlier
        · exact List.mem_cons.mp member

theorem lookup_cons_of_ne {key other : String} (different : other ≠ key) (entry : Entry α)
    (entries : List (String × Entry α)) :
    ((key, entry) :: entries).lookup other = entries.lookup other := by
  simp [List.lookup_cons, beq_false_of_ne different]

theorem lookup_without (recency : Recency α) (key other : String) :
    (recency.without key).lookup other = if other = key then none else recency.find? other := by
  rw [without, find?]
  induction recency.entries with
  | nil => simp
  | cons held rest ih =>
      obtain ⟨name, entry⟩ := held
      by_cases dropped : name = key
      · subst dropped
        by_cases same : other = name
        · simpa [same] using ih
        · simpa [same, lookup_cons_of_ne same] using ih
      · by_cases same : other = name
        · simp [same, dropped]
        · simpa [dropped, lookup_cons_of_ne same] using ih

theorem get_missing {key : String} (missing : recency.find? key = none) (now : Nat) :
    recency.get now key = ({ recency with tally := recency.tally.miss }, none) := by
  simp [get, missing]

theorem get_expired {now : Nat} {key : String} {entry : Entry α}
    (held : recency.find? key = some entry) (old : recency.limits.isExpired now entry = true) :
    recency.get now key =
      ({ recency with entries := recency.without key, tally := recency.tally.expire }, none) := by
  simp [get, held, old]

theorem get_fresh {now : Nat} {key : String} {entry : Entry α}
    (held : recency.find? key = some entry) (fresh : recency.limits.isExpired now entry = false) :
    recency.get now key = ({ recency with
        entries := (key, entry) :: recency.without key
        tally := recency.tally.hit }, some entry.value) := by
  simp [get, held, fresh]

theorem lookup_promoted {key : String} {entry : Entry α} (held : recency.find? key = some entry)
    (other : String) :
    ((key, entry) :: recency.without key).lookup other = recency.find? other := by
  by_cases same : other = key
  · simp [same, held]
  · rw [lookup_cons_of_ne same, lookup_without, if_neg same]

theorem find?_set_self {key : String} (opened : recency.limits.capacity ≠ 0) (now : Nat)
    (value : α) :
    (recency.set now key value).find? key = some (recency.limits.entry now value) := by
  rw [set, if_neg opened]
  cases recency.find? key with
  | some former => simp [find?]
  | none =>
      dsimp only
      split <;> simp [find?]

theorem find?_of_find?_set {now : Nat} {key other : String} {value : α} {entry : Entry α}
    (different : other ≠ key) (found : (recency.set now key value).find? other = some entry) :
    recency.find? other = some entry := by
  rw [set] at found
  split at found
  · exact found
  · cases held : recency.find? key with
    | some former =>
        simp only [held] at found
        rwa [find?, lookup_cons_of_ne different, lookup_without, if_neg different] at found
    | none =>
        simp only [held] at found
        split at found
        · rw [find?, lookup_cons_of_ne different] at found
          obtain ⟨before, after, split, apart⟩ := List.lookup_eq_some_iff.mp found
          obtain ⟨rest, whole⟩ := List.dropLast_prefix recency.entries
          refine List.lookup_eq_some_iff.mpr ⟨before, after ++ rest, ?_, apart⟩
          rw [← whole, split, List.append_assoc, List.cons_append]
        · rwa [find?, lookup_cons_of_ne different] at found

end Reckoner.Cache.Recency
