import Reckoner.Register

/-!
Theory of registers: what is found under a name after values are filed and erased, filing the
entries of a register one by one gives the register again, and values are changed without regard to
their names.
-/

namespace Reckoner.Register

variable {α β : Type}

theorem find?_insertEntry (name other : String) (value : α) (entries : List (String × α)) :
    (insertEntry name value entries).find? (fun entry => entry.1 == other) =
      if other = name then some (name, value)
      else entries.find? fun entry => entry.1 == other := by
  have first (rest : List (String × α)) :
      ((name, value) :: rest).find? (fun entry => entry.1 == other) =
        if other = name then some (name, value)
        else rest.find? fun entry => entry.1 == other := by
    by_cases same : other = name
    · simp [same]
    · simp [same, Ne.symm same]
  induction entries with
  | nil => exact first []
  | cons entry rest ih =>
      unfold insertEntry
      split
      · exact first _
      · split
        · rename_i replaced
          by_cases same : other = name
          · simp [same]
          · simp [same, ← replaced, Ne.symm same]
        · rename_i different
          by_cases here : entry.1 = other
          · simp [← here, Ne.symm different]
          · simp [here, ih]

theorem get?_insert (register : Register α) (name other : String) (value : α) :
    (register.insert name value).get? other =
      if other = name then some value else register.get? other := by
  unfold get? insert
  rw [find?_insertEntry]
  split <;> rfl

theorem get?_erase (register : Register α) (name other : String) :
    (register.erase name).get? other = if other = name then none else register.get? other := by
  unfold get? erase
  by_cases same : other = name
  · simp [same]
  · rw [if_neg same, List.find?_filter]
    congr 2
    funext entry
    by_cases here : entry.1 = other
    · simp [here, same]
    · simp [here]

theorem ascending_map (change : α → β) {entries : List (String × α)}
    (ascending : Ascending entries) :
    Ascending (entries.map fun entry => (entry.1, change entry.2)) :=
  List.pairwise_map.mpr ascending

def map (change : α → β) (register : Register α) : Register β :=
  ⟨register.entries.map fun entry => (entry.1, change entry.2),
    ascending_map change register.ascending⟩

@[simp] theorem map_id (register : Register α) : register.map id = register := by
  simp [map]

theorem insertEntry_last (name : String) (value : α) {entries : List (String × α)}
    (above : ∀ entry ∈ entries, entry.1 < name) :
    insertEntry name value entries = entries ++ [(name, value)] := by
  induction entries with
  | nil => rfl
  | cons entry rest ih =>
      have before : entry.1 < name := above entry List.mem_cons_self
      have notAfter : ¬name < entry.1 := String.lt_asymm before
      have other : name ≠ entry.1 := by
        rintro rfl
        exact String.lt_irrefl _ before
      have later := ih fun entry member => above entry (List.mem_cons_of_mem _ member)
      simp [insertEntry, notAfter, other, later]

theorem entries_foldl_insert (entries : List (String × α)) (register : Register α)
    (ascending : Ascending (register.entries ++ entries)) :
    (entries.foldl (fun register entry => register.insert entry.1 entry.2) register).entries =
      register.entries ++ entries := by
  induction entries generalizing register with
  | nil => simp
  | cons entry rest ih =>
      have above : ∀ earlier ∈ register.entries, earlier.1 < entry.1 := by
        intro earlier member
        exact (List.pairwise_append.mp ascending).2.2 earlier member entry List.mem_cons_self
      have filed : (register.insert entry.1 entry.2).entries = register.entries ++ [entry] :=
        insertEntry_last entry.1 entry.2 above
      rw [List.foldl_cons, ih _ (by simpa [filed] using ascending), filed]
      simp

theorem entries_ofList {entries : List (String × α)} (ascending : Ascending entries) :
    (ofList entries).entries = entries :=
  entries_foldl_insert entries empty ascending

theorem ofList_entries (register : Register α) : ofList register.entries = register := by
  have same := entries_ofList register.ascending
  obtain ⟨entries, ascending⟩ := register
  cases files : ofList entries with
  | mk filed _ =>
      rw [files] at same
      cases same
      rfl

end Reckoner.Register
