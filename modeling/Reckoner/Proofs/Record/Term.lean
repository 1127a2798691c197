import Reckoner.Proofs.Json.Fields
import Reckoner.Proofs.Json.Number
import Reckoner.Proofs.Term.Grammar
import Reckoner.Record.Term

/-!
Theory of the records of terms. A term is read back from its record if its numbers are and if its
positions fit a word. A record nests two deep for every call, and one deep for what is inside.
-/

namespace Reckoner.Term

open Reckoner.Json

mutual

def numbers : Term → List Float
  | .number value _ => [value]
  | .variable _ _ => []
  | .call _ arguments _ => numbersOfAll arguments

def numbersOfAll : List Term → List Float
  | [] => []
  | term :: rest => term.numbers ++ numbersOfAll rest

end

mutual

def positions : Term → List Nat
  | .number _ position => [position]
  | .variable _ position => [position]
  | .call _ arguments position => position :: positionsOfAll arguments

def positionsOfAll : List Term → List Nat
  | [] => []
  | term :: rest => term.positions ++ positionsOfAll rest

end

mutual

def mapNumbers (change : Float → Float) : Term → Term
  | .number value position => .number (change value) position
  | .variable name position => .variable name position
  | .call name arguments position => .call name (mapNumbersOfAll change arguments) position

def mapNumbersOfAll (change : Float → Float) : List Term → List Term
  | [] => []
  | term :: rest => term.mapNumbers change :: mapNumbersOfAll change rest

end

mutual

@[simp] theorem mapNumbers_id : ∀ term : Term, term.mapNumbers id = term
  | .number _ _ => rfl
  | .variable _ _ => rfl
  | .call _ arguments _ => by rw [mapNumbers, mapNumbersOfAll_id arguments]

@[simp] theorem mapNumbersOfAll_id : ∀ terms : List Term, mapNumbersOfAll id terms = terms
  | [] => rfl
  | term :: rest => by rw [mapNumbersOfAll, mapNumbers_id term, mapNumbersOfAll_id rest]

end

mutual

theorem mapNumbers_mapNumbers (first next : Float → Float) : ∀ term : Term,
    (term.mapNumbers first).mapNumbers next = term.mapNumbers (next ∘ first)
  | .number _ _ => rfl
  | .variable _ _ => rfl
  | .call _ arguments _ => by
      rw [mapNumbers, mapNumbers, mapNumbers, mapNumbersOfAll_mapNumbersOfAll first next arguments]

theorem mapNumbersOfAll_mapNumbersOfAll (first next : Float → Float) : ∀ terms : List Term,
    mapNumbersOfAll next (mapNumbersOfAll first terms) = mapNumbersOfAll (next ∘ first) terms
  | [] => rfl
  | term :: rest => by
      rw [mapNumbersOfAll, mapNumbersOfAll, mapNumbersOfAll, mapNumbers_mapNumbers first next term,
        mapNumbersOfAll_mapNumbersOfAll first next rest]

end

theorem shape_ofTag? (nested : Bool) (shape : Shape) :
    Shape.ofTag? nested (.ofString shape.name) = some shape := by
  cases shape <;> rfl

theorem splitTag?_record (tag : Value) {members : List (String × Value)}
    (untagged : "type" ∉ members.map (·.1)) :
    splitTag? (.record (("type", tag) :: members)) = some (tag, .record members) := by
  have other : ∀ member ∈ members.map fun member => (some member.1, member.2),
      member.1 ≠ some "type" := by
    intro member inside same
    obtain ⟨plain, present, rfl⟩ := List.mem_map.mp inside
    exact untagged (List.mem_map.mpr ⟨plain, present, Option.some.inj same⟩)
  have none : (members.map fun member => (some member.1, member.2)).filter
      (fun member => member.1 == some "type") = [] :=
    List.filter_eq_nil_iff.mpr fun member inside => by simpa using other member inside
  have all : (members.map fun member => (some member.1, member.2)).filter
      (fun member => member.1 != some "type") =
        members.map fun member => (some member.1, member.2) :=
    List.filter_eq_self.mpr fun member inside => by simpa using other member inside
  simp [Value.record, splitTag?, none, all]

mutual

theorem ofRecord?_toJson {change : Float → Float} : ∀ (term : Term),
    (∀ value ∈ term.numbers, (Value.ofFloat value).float? = some (change value)) →
      (∀ position ∈ term.positions, Word64.fits position = true) → ∀ (fuel : Nat) (nested : Bool),
        term.toJson.depth < fuel →
          ofRecord? fuel nested term.toJson = some (term.mapNumbers change)
  | .number value position, back, fits, fuel + 1, nested, _ => by
      have fields :
          (Value.record [("value", .ofFloat value), ("position", .ofNat position)]).fields?
              ["value", "position"] =
            some [some (.ofFloat value), some (.ofNat position)] :=
        fields?_record _ (by simp)
      simp [toJson, ofRecord?, splitTag?_record, shape_ofTag?, fields,
        back value List.mem_cons_self, word?_ofNat (fits position List.mem_cons_self), mapNumbers]
  | .variable name position, back, fits, fuel + 1, nested, _ => by
      have fields :
          (Value.record [("value", .ofString name), ("position", .ofNat position)]).fields?
              ["value", "position"] =
            some [some (.ofString name), some (.ofNat position)] :=
        fields?_record _ (by simp)
      simp [toJson, ofRecord?, splitTag?_record, shape_ofTag?, fields,
        word?_ofNat (fits position List.mem_cons_self), mapNumbers]
  | .call name arguments position, back, fits, fuel + 1, nested, enough => by
      have fields : (Value.record [("value", .ofString name),
          ("children", .array (listToJson arguments)), ("position", .ofNat position)]).fields?
            ["value", "children", "position"] = some [some (.ofString name),
              some (.array (listToJson arguments)), some (.ofNat position)] :=
        fields?_record _ (by simp)
      have inner : itemsDepth (listToJson arguments) < fuel := by
        simp [toJson, depth_record, Value.depth] at enough
        omega
      have readArguments := mapM_ofRecord?_listToJson arguments back
        (fun position inside => fits position (List.mem_cons_of_mem _ inside)) fuel inner
      simp [toJson, ofRecord?, splitTag?_record, shape_ofTag?, fields, readArguments,
        word?_ofNat (fits position List.mem_cons_self), mapNumbers]

theorem mapM_ofRecord?_listToJson {change : Float → Float} : ∀ (terms : List Term),
    (∀ value ∈ numbersOfAll terms, (Value.ofFloat value).float? = some (change value)) →
      (∀ position ∈ positionsOfAll terms, Word64.fits position = true) → ∀ (fuel : Nat),
        itemsDepth (listToJson terms) < fuel →
          (listToJson terms).mapM (ofRecord? fuel true) = some (mapNumbersOfAll change terms)
  | [], _, _, _, _ => rfl
  | term :: rest, back, fits, fuel, enough => by
      simp only [numbersOfAll, positionsOfAll, List.forall_mem_append] at back fits
      rw [listToJson, itemsDepth, Nat.max_lt] at enough
      have first := ofRecord?_toJson term back.1 fits.1 fuel true enough.1
      have others := mapM_ofRecord?_listToJson rest back.2 fits.2 fuel enough.2
      simp [listToJson, List.mapM_cons, first, others, mapNumbersOfAll]

end

mutual

theorem allSound_toJson {test : Decimal.Numeral → Bool} : ∀ (term : Term),
    (∀ value ∈ term.numbers, (Value.ofFloat value).allSound test = true) →
      (∀ position ∈ term.positions, (Value.ofNat position).allSound test = true) →
        term.toJson.allSound test = true
  | .number value position, floats, naturals => by
      simp [toJson, allSound_record, floats value List.mem_cons_self,
        naturals position List.mem_cons_self]
  | .variable name position, floats, naturals => by
      simp [toJson, allSound_record, naturals position List.mem_cons_self]
  | .call name arguments position, floats, naturals => by
      have inner := itemsSound_listToJson arguments floats
        fun position inside => naturals position (List.mem_cons_of_mem _ inside)
      simp [toJson, allSound_record, Value.allSound, inner, naturals position List.mem_cons_self]

theorem itemsSound_listToJson {test : Decimal.Numeral → Bool} : ∀ (terms : List Term),
    (∀ value ∈ numbersOfAll terms, (Value.ofFloat value).allSound test = true) →
      (∀ position ∈ positionsOfAll terms, (Value.ofNat position).allSound test = true) →
        itemsSound test (listToJson terms) = true
  | [], _, _ => rfl
  | term :: rest, floats, naturals => by
      simp only [numbersOfAll, positionsOfAll, List.forall_mem_append] at floats naturals
      rw [listToJson, itemsSound, allSound_toJson term floats.1 naturals.1,
        itemsSound_listToJson rest floats.2 naturals.2, Bool.and_self]

end

theorem writable_toJson (term : Term) : term.toJson.isWritable :=
  allSound_toJson term (fun value _ => writable_ofFloat value) fun position _ =>
    writable_ofNat position

theorem depth_toJson_call (name : String) (argument : Term) (position : Nat) :
    (call name [argument] position).toJson.depth = argument.toJson.depth + 2 := by
  simp [toJson, listToJson, depth_record, Value.depth, itemsDepth]

theorem depth_toJson_of_ofTokens {tokens : List Token} {term : Term}
    (read : ofTokens tokens = .ok term) : term.toJson.depth = 2 * term.callDepth + 1 := by
  refine ofTokens_induction (p := fun _ term => term.toJson.depth = 2 * term.callDepth + 1)
    ?leaf ?call read
  case leaf =>
    intro token rest term found
    rcases leaf?_cases found with ⟨value, rfl⟩ | ⟨name, rfl⟩
    · simp [toJson, depth_record, callDepth]
    · simp [toJson, depth_record, callDepth]
  case call =>
    intro token next inner argument shallow
    rw [depth_toJson_call, shallow, callDepth]
    omega

theorem positions_of_ofTokens {tokens : List Token} {term : Term}
    (read : ofTokens tokens = .ok term) :
    ∀ position ∈ term.positions, ∃ token ∈ tokens, token.position = position := by
  refine ofTokens_induction (p := fun tokens term =>
    ∀ position ∈ term.positions, ∃ token ∈ tokens, token.position = position) ?leaf ?call read
  case leaf =>
    intro token rest term found
    rcases leaf?_cases found with ⟨value, rfl⟩ | ⟨name, rfl⟩
    · simp [positions]
    · simp [positions]
  case call =>
    intro token next inner argument placed position member
    simp only [positions, positionsOfAll, List.append_nil, List.mem_cons] at member
    rcases member with rfl | inside
    · exact ⟨token, List.mem_cons_self, rfl⟩
    · obtain ⟨other, present, same⟩ := placed position inside
      exact ⟨other, List.mem_cons_of_mem _ (List.mem_cons_of_mem _ present), same⟩

theorem ofJson?_toJson {change : Float → Float} {term : Term} {outer : Nat}
    (back : ∀ value ∈ term.numbers, (Value.ofFloat value).float? = some (change value))
    (fits : ∀ position ∈ term.positions, Word64.fits position = true)
    (shallow : term.toJson.depth + outer ≤ depthLimit) :
    ofJson? outer term.toJson = some (term.mapNumbers change) := by
  have sound : term.toJson.allSound isNumber = true :=
    allSound_toJson term (fun value inside => isNumber_ofFloat (back value inside))
      fun position inside => isNumber_ofNat (fits position inside)
  have read := ofRecord?_toJson term back fits (term.toJson.depth + 1) false (Nat.lt_succ_self _)
  simp [ofJson?, sound, shallow, read]

theorem ofJson?_eq_none {outer : Nat} {value : Value} (deep : depthLimit < value.depth + outer) :
    ofJson? outer value = none := by
  simp [ofJson?, Nat.not_le_of_lt deep]

end Reckoner.Term
