import Reckoner.Key
import Reckoner.Proofs.Decimal.Normal
import Reckoner.Proofs.Decimal.Writing
import Reckoner.Proofs.Text.Unquoted

/-!
Theory of keys. Two arguments of one kind have the same key only if they are the same: a number is
read back up to where it ends, a text up to its closing quote, and the items of a list are what
stands between its commas.
-/

namespace Reckoner.Key

open Decimal (Numeral comma_not_mem_write digitList digitList_ne_nil digitsValue_digitList
  eq_of_isNaN head_digitList_ne_zero isDecimalDigit_of_mem_digitList write_injective write_ne_nil)
open Json (EndsValue endsValue_cons endsValue_nil isProper isProper_iff readNumeral?
  readNumeral?_text)

theorem ofFloat_injective : Function.Injective ofFloat := by
  intro value other same
  exact write_injective layout (String.ofList_injective same)

def numeral (value : Int) : Numeral :=
  ⟨decide (value < 0), digitList value.natAbs, [], none⟩

theorem isProper_numeral (value : Int) : isProper (numeral value) = true := by
  refine (isProper_iff _).mpr ⟨?_, fun _ => isDecimalDigit_of_mem_digitList, by simp [numeral]⟩
  rcases Nat.eq_zero_or_pos value.natAbs with zero | positive
  · exact Or.inl (by rw [numeral, zero]; rfl)
  · exact Or.inr ⟨digitList_ne_nil _, head_digitList_ne_zero positive⟩

theorem numeral_injective : Function.Injective numeral := by
  intro value other same
  have sign := congrArg Numeral.negative same
  have digits := congrArg (fun numeral => Decimal.digitsValue 0 numeral.whole) same
  simp only [numeral, digitsValue_digitList, decide_eq_decide] at sign digits
  omega

theorem toList_ofInt (value : Int) : (ofInt value).toList = (numeral value).text [] := by
  cases value with
  | ofNat size =>
      have text : ofInt (Int.ofNat size) = Nat.repr size := rfl
      have nonnegative : ¬(Int.ofNat size < 0) := Int.not_lt.mpr (Int.natCast_nonneg size)
      rw [text]
      simp only [numeral, Numeral.text, Decimal.signed, nonnegative, Nat.repr, String.toList_ofList]
      simp [digitList]
  | negSucc less =>
      have text : ofInt (Int.negSucc less) = "-" ++ Nat.repr (less + 1) := rfl
      simp [text, numeral, Numeral.text, Decimal.signed, digitList, Nat.repr]

theorem readNumeral?_ofInt (value : Int) {rest : List Char} (ends : EndsValue rest) :
    readNumeral? ((ofInt value).toList ++ rest) = some (numeral value, rest) := by
  rw [toList_ofInt]
  exact readNumeral?_text (Or.inl rfl) (isProper_numeral value) ends

theorem ofInt_injective : Function.Injective ofInt := by
  intro value other same
  have read := readNumeral?_ofInt value endsValue_nil
  rw [same, readNumeral?_ofInt other endsValue_nil] at read
  exact numeral_injective (congrArg Prod.fst (Option.some.inj read)).symm

theorem ofPair_injective {first first' second second' : Int}
    (same : ofPair first second = ofPair first' second') : first = first' ∧ second = second' := by
  have texts := congrArg String.toList same
  simp only [ofPair, String.toList_append, List.append_assoc, List.append_right_inj] at texts
  have ends (rest : List Char) : EndsValue (", ".toList ++ rest) :=
    endsValue_cons rfl _
  have read := readNumeral?_ofInt first (ends ((ofInt second).toList ++ ")".toList))
  rw [texts, readNumeral?_ofInt first' (ends ((ofInt second').toList ++ ")".toList))] at read
  obtain ⟨heads, rests⟩ := Prod.mk.inj (Option.some.inj read)
  obtain rfl := numeral_injective heads
  simp only [List.append_right_inj, List.append_left_inj] at rests
  exact ⟨rfl, (ofInt_injective (String.toList_injective rests)).symm⟩

theorem ofString_injective : Function.Injective ofString :=
  Text.quoted_injective

theorem intercalate_spaced (item : List Char) (items : List (List Char)) :
    [',', ' '].intercalate (item :: items) =
      [','].intercalate (item :: items.map (' ' :: ·)) := by
  induction items generalizing item with
  | nil => rfl
  | cons next items ih =>
      rw [List.map_cons, List.intercalate_cons_cons, List.intercalate_cons_cons,
        List.intercalate_cons_cons_left, ih]
      simp

/-- Whether a text shows where it ends when it stands in a list. -/
def IsItem (text : List Char) : Prop :=
  ',' ∉ text ∧ text ≠ []

theorem splitOn_spaced {item : List Char} {items : List (List Char)}
    (all : ∀ text ∈ item :: items, IsItem text) :
    ([',', ' '].intercalate (item :: items)).splitOn ',' = item :: items.map (' ' :: ·) := by
  obtain ⟨first, later⟩ := List.forall_mem_cons.mp all
  have solid : ∀ text ∈ items, ',' ∉ text := fun text member => (later text member).1
  rw [intercalate_spaced]
  refine List.splitOn_intercalate ',' ?_ (List.cons_ne_nil _ _)
  simpa using ⟨first.1, solid⟩

theorem spaced_inj {items others : List (List Char)} (all : ∀ text ∈ items, IsItem text)
    (all' : ∀ text ∈ others, IsItem text)
    (same : [',', ' '].intercalate items = [',', ' '].intercalate others) : items = others := by
  have cut := congrArg (List.splitOn ',') same
  cases items with
  | nil =>
      cases others with
      | nil => rfl
      | cons item others =>
          -- No items are cut like one empty item, and no item is empty.
          rw [splitOn_spaced all'] at cut
          exact absurd (List.cons.inj cut).1.symm (all' item List.mem_cons_self).2
  | cons item items =>
      rw [splitOn_spaced all] at cut
      cases others with
      | nil => exact absurd (List.cons.inj cut).1 (all item List.mem_cons_self).2
      | cons item' others =>
          rw [splitOn_spaced all'] at cut
          obtain ⟨first, later⟩ := List.cons.inj cut
          rw [first, List.map_injective_iff.mpr List.cons_injective later]

theorem ofList_injective : Function.Injective ofList := by
  intro values others same
  have texts := congrArg String.toList same
  simp only [ofList, String.toList_append, String.toList_intercalate, List.map_map,
    List.append_left_inj, List.append_right_inj] at texts
  have items (values : List Float) :
      ∀ item ∈ values.map (String.toList ∘ ofFloat), IsItem item := by
    intro item member
    obtain ⟨value, -, rfl⟩ := List.mem_map.mp member
    simp only [Function.comp, ofFloat, String.toList_ofList]
    exact ⟨comma_not_mem_write layout value, write_ne_nil layout value⟩
  have texts_injective : Function.Injective (String.toList ∘ ofFloat) :=
    fun _ _ same => ofFloat_injective (String.toList_injective same)
  exact List.map_injective_iff.mpr texts_injective (spaced_inj (items values) (items others) texts)

theorem ofFloat_eq_NaN (value : Float) : ofFloat value = "NaN" ↔ value.isNaN = true := by
  have name : ofFloat (0.0 / 0.0) = "NaN" := by decide
  have nan : (0.0 / 0.0 : Float).isNaN = true := by decide
  constructor
  case mp =>
    intro same
    rwa [ofFloat_injective (same.trans name.symm)]
  case mpr =>
    intro nameless
    rwa [eq_of_isNaN nameless nan]

/-- No two arguments of one kind have one key. Two doubles are one here if they have the same bits
or are both no number, so the zeros are two. -/
theorem keys_injective :
    Function.Injective ofInt ∧ Function.Injective2 ofPair ∧ Function.Injective ofString ∧
      Function.Injective ofFloat ∧ Function.Injective ofList ∧
      (∀ value : Float, ofFloat value = "NaN" ↔ value.isNaN = true) ∧
      ofFloat 0.0 ≠ ofFloat (-0.0) := by
  refine ⟨ofInt_injective, fun _ _ _ _ => ofPair_injective, ofString_injective, ofFloat_injective,
    ofList_injective, ofFloat_eq_NaN, ?zeros⟩
  case zeros => decide

end Reckoner.Key
