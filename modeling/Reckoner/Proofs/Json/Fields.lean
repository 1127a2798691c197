import Mathlib.Data.List.Nodup
import Reckoner.Proofs.Json.RoundTrip

/-!
Theory of records: a record with distinct names gives its values by their names, and what holds of
all values of a record or a list holds of the whole.
-/

namespace Reckoner.Json

theorem itemsSound_eq_all (test : Decimal.Numeral → Bool) (items : List Value) :
    itemsSound test items = items.all (Value.allSound test) := by
  induction items with
  | nil => rfl
  | cons item items ih => rw [itemsSound, ih, List.all_cons]

theorem allSound_record (test : Decimal.Numeral → Bool) (members : List (String × Value)) :
    (Value.record members).allSound test = members.all fun member => member.2.allSound test := by
  unfold Value.record
  rw [Value.allSound]
  induction members with
  | nil => rfl
  | cons member members ih =>
      rw [List.map_cons, membersSound, ih, List.all_cons]
      rfl

theorem depth_record (members : List (String × Value)) :
    (Value.record members).depth = (members.map fun member => member.2.depth).foldr max 0 + 1 := by
  unfold Value.record
  rw [Value.depth]
  induction members with
  | nil => rfl
  | cons member members ih =>
      simp only [List.map_cons, membersDepth, List.foldr_cons] at ih ⊢
      omega

@[simp] theorem allSound_ofString (test : Decimal.Numeral → Bool) (content : String) :
    (Value.ofString content).allSound test = true :=
  rfl

@[simp] theorem depth_ofString (content : String) : (Value.ofString content).depth = 0 :=
  rfl

@[simp] theorem string?_ofString (content : String) :
    (Value.ofString content).string? = some content :=
  rfl

theorem mapM_map_eq_some {α β γ : Type} {write : α → β} {read : β → Option γ} {result : α → γ}
    {items : List α} (reads : ∀ item ∈ items, read (write item) = some (result item)) :
    (items.map write).mapM read = some (items.map result) := by
  induction items with
  | nil => rfl
  | cons item items ih =>
      have first := reads item List.mem_cons_self
      have others := ih fun other member => reads other (List.mem_cons_of_mem _ member)
      simp [List.mapM_cons, first, others]

theorem mapM_map_eq_self {α β : Type} {write : α → β} {read : β → Option α} {items : List α}
    (reads : ∀ item ∈ items, read (write item) = some item) :
    (items.map write).mapM read = some items := by
  simpa using mapM_map_eq_some reads

theorem find?_member {members : List (String × Value)} (distinct : (members.map (·.1)).Nodup)
    {member : String × Value} (inside : member ∈ members) :
    (members.map fun other => (some other.1, other.2)).find?
      (fun other => other.1 == some member.1) = some (some member.1, member.2) := by
  induction members with
  | nil => contradiction
  | cons head rest ih =>
      obtain ⟨new, distinctRest⟩ := List.nodup_cons.mp distinct
      rcases List.mem_cons.mp inside with rfl | later
      · simp
      · have other : head.1 ≠ member.1 := by
          intro same
          exact new (List.mem_map.mpr ⟨member, later, same.symm⟩)
        simpa [other] using ih distinctRest later

theorem fields?_record (members : List (String × Value))
    (distinct : (members.map (·.1)).Nodup) :
    (Value.record members).fields? (members.map (·.1)) =
      some (members.map fun member => some member.2) := by
  have once (name : String) : (members.filter fun member => member.1 == name).length ≤ 1 := by
    have few := List.nodup_iff_count_le_one.mp distinct name
    rw [List.count_eq_length_filter, List.filter_map, List.length_map] at few
    exact few
  have found : ∀ member ∈ members, ((members.map fun other => (some other.1, other.2)).find?
      fun other => other.1 == some member.1).map (·.2) = some member.2 := by
    intro member inside
    rw [find?_member distinct inside]
    rfl
  unfold Value.record Value.fields?
  dsimp only
  rw [if_pos, List.map_map]
  · exact congrArg some (List.map_congr_left found)
  · simpa [List.filter_map, Function.comp_def] using fun name _ _ => once name

end Reckoner.Json
