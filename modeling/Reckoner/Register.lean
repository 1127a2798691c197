/-!
Registers: values filed under names. The entries are kept in the order of their names, each name
once, so that two registers with the same values are equal and are listed alike.
-/

namespace Reckoner

def Ascending {α : Type} (entries : List (String × α)) : Prop :=
  entries.Pairwise fun earlier later => earlier.1 < later.1

structure Register (α : Type) where
  entries : List (String × α)
  ascending : Ascending entries

namespace Register

variable {α : Type}

def empty : Register α :=
  ⟨[], List.Pairwise.nil⟩

def insertEntry (name : String) (value : α) : List (String × α) → List (String × α)
  | [] => [(name, value)]
  | (key, kept) :: rest =>
      if name < key then (name, value) :: (key, kept) :: rest
      else if name = key then (name, value) :: rest
      else (key, kept) :: insertEntry name value rest

theorem mem_insertEntry {name : String} {value : α} {entry : String × α} :
    ∀ {entries : List (String × α)}, entry ∈ insertEntry name value entries →
      entry = (name, value) ∨ entry ∈ entries
  | [], member => by simpa [insertEntry] using member
  | (key, kept) :: rest, member => by
      unfold insertEntry at member
      split at member
      · simpa using member
      · split at member
        · simp only [List.mem_cons] at member ⊢
          exact member.imp_right Or.inr
        · simp only [List.mem_cons] at member ⊢
          rcases member with same | later
          · exact Or.inr (Or.inl same)
          · exact (mem_insertEntry later).imp_right Or.inr

theorem ascending_insertEntry (name : String) (value : α) :
    ∀ entries : List (String × α), Ascending entries → Ascending (insertEntry name value entries)
  | [], _ => by simp [insertEntry, Ascending]
  | (key, kept) :: rest, ordered => by
      obtain ⟨above, orderedRest⟩ := List.pairwise_cons.mp ordered
      unfold insertEntry
      split
      · rename_i before
        refine List.pairwise_cons.mpr ⟨?_, ordered⟩
        intro entry member
        rcases List.mem_cons.mp member with same | later
        · exact same ▸ before
        · exact String.lt_trans before (above entry later)
      · rename_i notBefore
        split
        · rename_i same
          refine List.pairwise_cons.mpr ⟨?_, orderedRest⟩
          intro entry member
          exact same ▸ above entry member
        · rename_i different
          refine List.pairwise_cons.mpr ⟨?_, ascending_insertEntry name value rest orderedRest⟩
          intro entry member
          rcases mem_insertEntry member with new | later
          · subst new
            grind
          · exact above entry later

def insert (register : Register α) (name : String) (value : α) : Register α :=
  ⟨insertEntry name value register.entries,
    ascending_insertEntry name value register.entries register.ascending⟩

def erase (register : Register α) (name : String) : Register α :=
  ⟨register.entries.filter fun entry => entry.1 != name,
    List.Pairwise.filter _ register.ascending⟩

def get? (register : Register α) (name : String) : Option α :=
  (register.entries.find? fun entry => entry.1 == name).map (·.2)

def isEmpty (register : Register α) : Bool :=
  register.entries.isEmpty

def names (register : Register α) : List String :=
  register.entries.map (·.1)

def ofList (entries : List (String × α)) : Register α :=
  entries.foldl (fun register entry => register.insert entry.1 entry.2) empty

def mapEntries? {β : Type} (convert : α → Option β) (register : Register α) : Option (Register β) :=
  let converted := register.entries.mapM fun entry =>
    (convert entry.2).map fun value => (entry.1, value)
  converted.map ofList

end Register

end Reckoner
