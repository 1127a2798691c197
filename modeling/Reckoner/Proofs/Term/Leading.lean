import Reckoner.Proofs.Term.Number
import Reckoner.Proofs.Token.Partition

/-!
The decimal at the head of a numeral. Cutting a text in front of its second point leaves the longest
beginning with at most one point, and dropping the last points of that leaves the longest which does
not end in a point. A plain decimal is neither cut nor shortened, so what is left of a numeral is
the longest plain decimal that it begins with, and the number of the numeral is the number of that.
-/

namespace Reckoner.Term

open Reckoner.Decimal
open Reckoner.Json (partText)
open Reckoner.Token (IsNumeral scan scan_cuts scanFrom_run scanFrom_nil)

/-- The longest beginning of a text that is digits, or digits with a point and digits behind it. -/
structure LeadingDecimal (text decimal : List Char) : Prop where
  plain : IsPlain decimal
  begins : decimal <+: text
  longest : ∀ other, IsPlain other → other <+: text → other.length ≤ decimal.length

theorem LeadingDecimal.unique {text decimal other : List Char}
    (leading : LeadingDecimal text decimal) (leading' : LeadingDecimal text other) :
    decimal = other := by
  have within : decimal <+: other :=
    List.prefix_of_prefix_length_le leading.begins leading'.begins
      (leading'.longest decimal leading.plain leading.begins)
  exact within.eq_of_length_le (leading.longest other leading'.plain leading'.begins)

theorem beforeSecondPoint_cons (first : Char) (rest : List Char) :
    beforeSecondPoint (first :: rest) =
      first :: if first = '.' then rest.takeWhile (· != '.') else beforeSecondPoint rest := by
  by_cases point : first = '.'
  · simp [beforeSecondPoint, point]
  · simp only [beforeSecondPoint, List.takeWhile_cons, List.dropWhile_cons, bne_iff_ne, ne_eq,
      point, not_false_eq_true, if_true, if_false]
    split <;> rfl

theorem beforeSecondPoint_begins (text : List Char) : beforeSecondPoint text <+: text := by
  induction text with
  | nil => exact List.prefix_rfl
  | cons first rest ih =>
      rw [beforeSecondPoint_cons, List.cons_prefix_cons]
      refine ⟨rfl, ?_⟩
      split
      · exact List.takeWhile_prefix _
      · exact ih

theorem count_beforeSecondPoint (text : List Char) : (beforeSecondPoint text).count '.' ≤ 1 := by
  induction text with
  | nil => exact Nat.zero_le 1
  | cons first rest ih =>
      rw [beforeSecondPoint_cons]
      by_cases point : first = '.'
      · have none : '.' ∉ rest.takeWhile (· != '.') := by
          intro member
          simpa using List.all_eq_true.mp List.all_takeWhile '.' member
        rw [if_pos point, point, List.count_cons_self, List.count_eq_zero.mpr none]
      · rwa [if_neg point, List.count_cons_of_ne point]

theorem begins_takeWhile {α : Type} {p : α → Bool} {start text : List α} (begins : start <+: text)
    (all : ∀ c ∈ start, p c = true) : start <+: text.takeWhile p := by
  obtain ⟨ahead, rfl⟩ := begins
  rw [List.takeWhile_append_of_pos all]
  exact List.prefix_append _ _

theorem begins_beforeSecondPoint {start text : List Char} (begins : start <+: text)
    (single : start.count '.' ≤ 1) : start <+: beforeSecondPoint text := by
  induction start generalizing text with
  | nil => exact List.nil_prefix
  | cons first start ih =>
      obtain ⟨rest, rfl, inner⟩ : ∃ rest, text = first :: rest ∧ start <+: rest := by
        obtain ⟨ahead, rfl⟩ := begins
        exact ⟨start ++ ahead, rfl, List.prefix_append _ _⟩
      rw [beforeSecondPoint_cons, List.cons_prefix_cons]
      refine ⟨rfl, ?_⟩
      by_cases point : first = '.'
      · rw [if_pos point]
        rw [point, List.count_cons_self] at single
        have none : '.' ∉ start := List.count_eq_zero.mp (by omega)
        refine begins_takeWhile inner fun c member => bne_iff_ne.mpr ?_
        rintro rfl
        exact none member
      · rw [if_neg point]
        rw [List.count_cons_of_ne point] at single
        exact ih inner single

theorem dropTrailingPoints_begins (text : List Char) : dropTrailingPoints text <+: text :=
  List.rdropWhile_prefix (· == '.') text

theorem getLast?_dropTrailingPoints (text : List Char) :
    (dropTrailingPoints text).getLast? ≠ some '.' := by
  rw [dropTrailingPoints, List.getLast?_reverse]
  intro last
  have stop := List.head?_dropWhile_not (· == '.') text.reverse
  simp [last] at stop

theorem begins_dropTrailingPoints {start text : List Char} (begins : start <+: text)
    (ends : start.getLast? ≠ some '.') : start <+: dropTrailingPoints text := by
  induction text using List.reverseRecOn with
  | nil => exact begins
  | append_singleton text last ih =>
      by_cases point : last = '.'
      · rw [point, dropTrailingPoints_point]
        rcases List.prefix_concat_iff.mp begins with rfl | shorter
        · simp [point] at ends
        · exact ih shorter
      · have kept : dropTrailingPoints (text ++ [last]) = text ++ [last] :=
          List.rdropWhile_concat_neg (p := (· == '.')) _ _ (by simpa using point)
        rwa [kept]

theorem point_of_isPlain {text : List Char} (plain : IsPlain text) :
    text.count '.' ≤ 1 ∧ text.getLast? ≠ some '.' := by
  have cut := cut_of_isPlain plain
  constructor
  · calc text.count '.'
        = (dropTrailingPoints (beforeSecondPoint text)).count '.' := by rw [cut]
      _ ≤ (beforeSecondPoint text).count '.' :=
        (dropTrailingPoints_begins (beforeSecondPoint text)).sublist.count_le '.'
      _ ≤ 1 := count_beforeSecondPoint text
  · rw [← cut]
    exact getLast?_dropTrailingPoints (beforeSecondPoint text)

theorem leadingDecimal_cut {text : List Char} (numeral : IsNumeral text) :
    LeadingDecimal text (dropTrailingPoints (beforeSecondPoint text)) := by
  constructor
  case plain => exact isPlain_cut numeral
  case begins =>
    exact (dropTrailingPoints_begins (beforeSecondPoint text)).trans (beforeSecondPoint_begins text)
  case longest =>
    intro other plain begins
    obtain ⟨single, ends⟩ := point_of_isPlain plain
    exact (begins_dropTrailingPoints (begins_beforeSecondPoint begins single) ends).length_le

/-- What is left of a text when it is cut is its leading decimal, and its number is the number of
that. -/
structure ReadsLeading (text : String) : Prop where
  leading : LeadingDecimal text.toList (dropTrailingPoints (beforeSecondPoint text.toList))
  value : ∀ decimal, LeadingDecimal text.toList decimal →
    read? decimal = some (leadingNumber text)

theorem readsLeading {text : String} (numeral : IsNumeral text.toList) : ReadsLeading text := by
  have leading := leadingDecimal_cut numeral
  constructor
  case leading => exact leading
  case value =>
    intro decimal leading'
    obtain ⟨value, read, -⟩ := leading.plain.read?
    rw [leading'.unique leading, leadingNumber, read, Option.getD_some]

/-- Every number of a scanned text is that of the longest decimal which its token begins with. -/
theorem readsLeading_scan (source : String) (token : Token) (held : token ∈ scan source)
    (number : token.kind = .number) : ReadsLeading token.text :=
  readsLeading (((scan_cuts source).munched token held).number_iff.mp number)

theorem readsLeading_points :
    ⟨.number, "7.25..5", 2⟩ ∈ scan "x+7.25..5" ∧ ReadsLeading "7.25..5" ∧
      LeadingDecimal "7.25..5".toList "7.25".toList ∧ leadingNumber "7.25..5" = 7.25 := by
  have held : ⟨.number, "7.25..5", 2⟩ ∈ scan "x+7.25..5" := by
    have text : "x+7.25..5".toList =
        'x' :: [] ++ ('+' :: [] ++ ('7' :: ['.', '2', '5', '.', '.', '5'] ++ [])) := by decide
    rw [scan, text, scanFrom_run rfl (by simp) (by simp; decide),
      scanFrom_run rfl (by simp) (by simp; decide),
      scanFrom_run rfl (List.all_eq_true.mp rfl) (by simp), scanFrom_nil]
    decide
  have reads := readsLeading_scan "x+7.25..5" _ held rfl
  have cut : dropTrailingPoints (beforeSecondPoint "7.25..5".toList) = "7.25".toList := by decide
  exact ⟨held, reads, cut ▸ reads.leading, by decide +kernel⟩

end Reckoner.Term
