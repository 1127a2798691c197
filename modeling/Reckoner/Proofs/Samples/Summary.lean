import Mathlib.Algebra.GroupWithZero.Nat
import Mathlib.Algebra.Order.BigOperators.Group.List
import Mathlib.Algebra.Order.Group.Nat
import Mathlib.Data.List.GetD
import Mathlib.Data.List.Pairwise
import Mathlib.Data.List.Sort
import Reckoner.Samples

/-!
Summaries against the samples that they are made of. The samples are put in ascending order first,
so that their own order does not matter, and every figure but the average is the sample at some
place of that order. There is a summary unless there is nothing to sum up or the whole time is too
long for a span.
-/

namespace Reckoner.Summary

open Reckoner.Decimal

variable {samples : List Nat}

/-- The place of the near-greatest sample as doubles give it: the count times 0.95, cut to a whole
number, but at most the last place. For as many samples as are kept nothing is lost by rounding. -/
theorem nearGreatestPlace_eq_double {count : Nat} (kept : count ≤ Samples.window) :
    nearGreatestPlace count = min (ofWord count * 0.95).toUInt64.toNat (count - 1) := by
  have whole : ∀ count < 101, (ofWord count * 0.95).toUInt64.toNat = count * 95 / 100 := by
    decide +kernel
  rw [whole count (Nat.lt_succ_of_le kept), nearGreatestPlace]

theorem nearGreatestPlace_lt {count : Nat} (some : 0 < count) :
    nearGreatestPlace count < count := by
  unfold nearGreatestPlace
  omega

theorem sorted_mergeSort (samples : List Nat) : samples.mergeSort.Pairwise (· ≤ ·) := by
  have sorted : samples.mergeSort.Pairwise fun left right => decide (left ≤ right) = true :=
    List.pairwise_mergeSort (by simpa using fun a b c => Nat.le_trans) (by simpa using Nat.le_total)
      samples
  simpa using sorted

theorem nearGreatestPlace_share (count : Nat) :
    95 * count ≤ 100 * (nearGreatestPlace count + 1) := by
  unfold nearGreatestPlace
  omega

theorem ofSamples_of_sorted {least : Nat} {rest : List Nat}
    (sorted : samples.mergeSort = least :: rest) :
    ofSamples samples =
      if Span.limit ≤ samples.sum then .overflow
      else .some
        { count := samples.length
          average := samples.sum / samples.length
          least
          greatest := (least :: rest).getLastD least
          nearGreatest := (least :: rest).getD (nearGreatestPlace samples.length) least } := by
  have perm := List.mergeSort_perm samples fun left right => decide (left ≤ right)
  rw [sorted] at perm
  rw [ofSamples, sorted]
  simp only [← List.sum_eq_foldl, perm.sum_eq, perm.length_eq]

theorem ofSamples_perm {order : List Nat} (perm : order.Perm samples) :
    ofSamples order = ofSamples samples := by
  have same : order.mergeSort = samples.mergeSort := by
    apply List.Perm.eq_of_pairwise' (sorted_mergeSort order) (sorted_mergeSort samples)
    exact (List.mergeSort_perm _ _).trans (perm.trans (List.mergeSort_perm _ _).symm)
  rw [ofSamples, ofSamples, same]

theorem exists_sorted (some : samples ≠ []) : ∃ least rest, samples.mergeSort = least :: rest := by
  apply List.exists_cons_of_ne_nil
  intro empty
  apply some
  rw [← List.length_eq_zero_iff, ← List.length_mergeSort samples, empty, List.length_nil]

theorem ofSamples_nil : ofSamples [] = .none := by
  rw [ofSamples, List.mergeSort_nil]

theorem ofSamples_eq_none_iff : ofSamples samples = .none ↔ samples = [] := by
  constructor
  · intro none
    by_contra some
    obtain ⟨least, rest, sorted⟩ := exists_sorted some
    rw [ofSamples_of_sorted sorted] at none
    split at none <;> contradiction
  · rintro rfl
    exact ofSamples_nil

theorem ofSamples_eq_overflow_iff : ofSamples samples = .overflow ↔ Span.limit ≤ samples.sum := by
  by_cases empty : samples = []
  · rw [empty, ofSamples_nil, List.sum_nil]
    exact iff_of_false (by simp) (by decide)
  · obtain ⟨least, rest, sorted⟩ := exists_sorted empty
    rw [ofSamples_of_sorted sorted]
    split <;> simp_all

theorem le_countP_getElem {order : List Nat} (sorted : order.Pairwise (· ≤ ·)) {place : Nat}
    (within : place < order.length) : place + 1 ≤ order.countP (· ≤ order[place]) := by
  have front : (order.take (place + 1)).countP (· ≤ order[place]) = place + 1 := by
    rw [List.countP_eq_length.mpr, List.length_take_of_le within]
    intro sample member
    obtain ⟨index, bound, rfl⟩ := List.mem_take_iff_getElem.mp member
    rw [decide_eq_true_iff]
    rcases Nat.lt_or_eq_of_le (by omega : index ≤ place) with before | rfl
    · exact List.pairwise_iff_getElem.mp sorted index place _ within before
    · exact Nat.le_refl _
  rw [← front]
  exact (List.take_sublist _ _).countP_le

/-- What a summary says of its samples. -/
structure Describes (summary : Summary) (samples : List Nat) : Prop where
  count : summary.count = samples.length
  average : summary.average = samples.sum / samples.length
  least : summary.least ∈ samples ∧ ∀ sample ∈ samples, summary.least ≤ sample
  greatest : summary.greatest ∈ samples ∧ ∀ sample ∈ samples, sample ≤ summary.greatest
  nearGreatest : summary.nearGreatest ∈ samples
  share : 95 * samples.length ≤ 100 * samples.countP (· ≤ summary.nearGreatest)
  place : ∃ order : List Nat, order.Perm samples ∧ order.Pairwise (· ≤ ·) ∧
    order[nearGreatestPlace samples.length]? = some summary.nearGreatest

namespace Describes

variable {summary : Summary}

theorem nonempty (describes : summary.Describes samples) : 0 < samples.length :=
  List.length_pos_of_mem describes.nearGreatest

theorem least_le_average (describes : summary.Describes samples) :
    summary.least ≤ summary.average := by
  rw [describes.average, Nat.le_div_iff_mul_le describes.nonempty, Nat.mul_comm]
  exact List.card_nsmul_le_sum samples summary.least describes.least.2

theorem average_le_greatest (describes : summary.Describes samples) :
    summary.average ≤ summary.greatest := by
  rw [describes.average]
  apply Nat.div_le_of_le_mul
  exact List.sum_le_card_nsmul samples summary.greatest describes.greatest.2

end Describes

theorem exists_describes (some : samples ≠ []) (fits : samples.sum < Span.limit) :
    ∃ summary, ofSamples samples = .some summary ∧ summary.Describes samples := by
  obtain ⟨least, rest, sorted⟩ := exists_sorted some
  have ascending := sorted_mergeSort samples
  have perm := List.mergeSort_perm samples fun left right => decide (left ≤ right)
  have length := perm.length_eq
  rw [sorted] at ascending perm length
  have within : nearGreatestPlace samples.length < (least :: rest).length := by
    rw [length]
    exact nearGreatestPlace_lt (length ▸ Nat.zero_lt_succ _)
  have near : (least :: rest).getD (nearGreatestPlace samples.length) least =
      (least :: rest)[nearGreatestPlace samples.length] := List.getD_eq_getElem _ _ within
  have count := le_countP_getElem ascending within
  rw [perm.countP_eq] at count
  refine ⟨_, (ofSamples_of_sorted sorted).trans (if_neg (Nat.not_le_of_lt fits)), ?_⟩
  rw [near]
  constructor
  case count => rfl
  case average => rfl
  case least =>
    refine ⟨perm.mem_iff.mp List.mem_cons_self, ?_⟩
    intro sample member
    rcases List.mem_cons.mp (perm.mem_iff.mpr member) with rfl | later
    · exact Nat.le_refl _
    · exact List.rel_of_pairwise_cons ascending later
  case greatest =>
    rw [List.getLastD_eq_getLast?, List.getLast?_eq_some_getLast (List.cons_ne_nil _ _),
      Option.getD_some]
    refine ⟨perm.mem_iff.mp (List.getLast_mem _), ?_⟩
    intro sample member
    exact ascending.rel_getLast (perm.mem_iff.mpr member)
  case nearGreatest => exact perm.mem_iff.mp (List.getElem_mem within)
  case share =>
    exact Nat.le_trans (nearGreatestPlace_share samples.length) (Nat.mul_le_mul_left 100 count)
  case place => exact ⟨_, perm, ascending, List.getElem?_eq_getElem within⟩

theorem describes_of_ofSamples {summary : Summary} (answer : ofSamples samples = .some summary) :
    summary.Describes samples := by
  have some : samples ≠ [] := by
    rintro rfl
    simp [ofSamples_nil] at answer
  have fits : samples.sum < Span.limit := by
    by_contra long
    rw [ofSamples_eq_overflow_iff.mpr (Nat.le_of_not_lt long)] at answer
    contradiction
  obtain ⟨described, same, describes⟩ := exists_describes some fits
  rw [same] at answer
  cases answer
  exact describes

end Reckoner.Summary
