import Mathlib.Data.List.Nodup
import Reckoner.Proofs.Cache.Contents
import Reckoner.Proofs.Cache.Order

/-!
Look-ups in a recency list by what they come to. One that finds a key only changes the order of the
keys. One that does not find it takes out at most the entry of that key, and only if it has grown
old.
-/

namespace Reckoner.Cache.Recency

variable {α : Type} {recency : Recency α}

theorem length_keys (recency : Recency α) : recency.keys.length = recency.entries.length :=
  List.length_map _

theorem length_without (distinct : recency.keys.Nodup) {key : String}
    (present : key ∈ recency.keys) :
    (recency.without key).length + 1 = recency.entries.length := by
  have others : (recency.without key).map (·.1) = recency.keys.erase key := by
    rw [keys_without, distinct.erase_eq_filter]
  rw [← List.length_map (·.1), others, List.length_erase_of_mem present, ← length_keys]
  exact Nat.sub_add_cancel (List.length_pos_of_mem present)

inductive LookedUp (recency : Recency α) (now : Nat) (key : String) : Recency α × Option α → Prop
  | missing (absent : recency.find? key = none) :
      LookedUp recency now key ({ recency with tally := recency.tally.miss }, none)
  | expired {entry : Entry α} (held : recency.find? key = some entry)
      (old : recency.limits.isExpired now entry = true) :
      LookedUp recency now key
        ({ recency with entries := recency.without key, tally := recency.tally.expire }, none)
  | found {entry : Entry α} (held : recency.find? key = some entry)
      (fresh : recency.limits.isExpired now entry = false) :
      LookedUp recency now key
        ({ recency with
            entries := (key, entry) :: recency.without key
            tally := recency.tally.hit }, some entry.value)

theorem lookedUp_get (recency : Recency α) (now : Nat) (key : String) :
    LookedUp recency now key (recency.get now key) := by
  cases held : recency.find? key with
  | none => exact get_missing held now ▸ .missing held
  | some entry =>
      cases age : recency.limits.isExpired now entry with
      | true => exact get_expired held age ▸ .expired held age
      | false => exact get_fresh held age ▸ .found held age

theorem limits_get (recency : Recency α) (now : Nat) (key : String) :
    (recency.get now key).1.limits = recency.limits := by
  have looked := recency.lookedUp_get now key
  generalize recency.get now key = result at looked
  cases looked <;> rfl

structure Missed (recency : Recency α) (now : Nat) (key : String) (next : Recency α) : Prop where
  hits : next.tally.hits = recency.tally.hits
  misses : next.tally.misses = recency.tally.misses + 1
  absent : key ∉ next.keys
  entries : next.entries = recency.entries.filter fun held =>
    !(held.1 == key && recency.limits.isExpired now held.2)

theorem entry_eq_of_mem (distinct : recency.keys.Nodup) {key : String} {entry other : Entry α}
    (held : recency.find? key = some entry) (member : (key, other) ∈ recency.entries) :
    other = entry := by
  have same := List.inj_on_of_nodup_map distinct member (mem_of_find? held) rfl
  exact (Prod.mk.inj same).2

theorem missed_get (distinct : recency.keys.Nodup) {now : Nat} {key : String}
    (missed : (recency.get now key).2 = none) :
    Missed recency now key (recency.get now key).1 := by
  have looked := recency.lookedUp_get now key
  generalize recency.get now key = result at looked missed
  cases looked with
  | missing absent =>
      have unheld := find?_eq_none_iff.mp absent
      refine ⟨rfl, rfl, unheld, (List.filter_eq_self.mpr ?_).symm⟩
      intro held member
      have other : held.1 ≠ key := by
        rintro rfl
        exact unheld (List.mem_map_of_mem member)
      simp [other]
  | @expired entry held old =>
      refine ⟨rfl, rfl, ?_, ?_⟩
      · rw [← find?_eq_none_iff]
        exact (recency.lookup_without key key).trans (if_pos rfl)
      · refine List.filter_congr fun other member => ?_
        by_cases own : other.1 = key
        · obtain ⟨name, kept⟩ := other
          subst own
          rw [entry_eq_of_mem distinct held member, old]
          simp
        · simp [bne, beq_false_of_ne own]
  | found held fresh => simp at missed

theorem hit_get (distinct : recency.keys.Nodup) {now : Nat} {key : String} {value : α}
    (hit : (recency.get now key).2 = some value) :
    (recency.get now key).1.tally = recency.tally.hit ∧
      (recency.get now key).1.keys.Perm recency.keys := by
  have looked := recency.lookedUp_get now key
  generalize recency.get now key = result at looked hit
  cases looked with
  | missing absent => simp at hit
  | expired held old => simp at hit
  | found held fresh =>
      refine ⟨rfl, ?_⟩
      have present := mem_keys_iff.mpr ⟨_, held⟩
      have others := recency.keys_without key
      rw [← distinct.erase_eq_filter] at others
      rw [keys, List.map_cons, others]
      exact (List.perm_cons_erase present).symm

end Reckoner.Cache.Recency
