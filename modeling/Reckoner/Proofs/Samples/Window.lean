import Mathlib.Data.List.DropRight
import Reckoner.Proofs.Register
import Reckoner.Proofs.Samples.Summary

/-!
Samples along a run of recordings and clearings. Of each name the latest samples are kept that were
recorded under it since it was last cleared, whatever happens to other names, and its summary is
made of these. The sum of the samples is not bounded by their number: it may be too long for a span,
and then, and only then, there is no summary of samples that are there.
-/

namespace Reckoner.Samples

open Reckoner.Decimal (ofWord)

inductive Action where
  | record (name : String) (sample : Nat)
  | clearName (name : String)
  | clear

def step (samples : Samples) : Action → Samples
  | .record name sample => samples.record name sample
  | .clearName name => samples.clearName name
  | .clear => .empty

def after (actions : List Action) : Samples :=
  actions.foldl step .empty

def note (name : String) (past : List Nat) : Action → List Nat
  | .record other sample => if other = name then past ++ [sample] else past
  | .clearName other => if other = name then [] else past
  | .clear => []

def recorded (name : String) (actions : List Action) : List Nat :=
  actions.foldl (note name) []

theorem ofName_record (samples : Samples) (name other : String) (sample : Nat) :
    (samples.record name sample).ofName other =
      if other = name then push (samples.ofName name) sample else samples.ofName other := by
  unfold record
  rw [ofName, Register.get?_insert]
  split <;> rfl

theorem ofName_clearName (samples : Samples) (name other : String) :
    (samples.clearName name).ofName other = if other = name then [] else samples.ofName other := by
  unfold clearName
  rw [ofName, Register.get?_erase]
  split <;> rfl

theorem length_rtake (past : List Nat) : (past.rtake window).length = min past.length window := by
  rw [List.rtake, List.length_drop]
  omega

theorem push_rtake (past : List Nat) (sample : Nat) :
    push (past.rtake window) sample = (past ++ [sample]).rtake window := by
  have positive : 0 < window := by decide
  have grown : (past ++ [sample]).rtake window =
      past.drop (past.length + 1 - window) ++ [sample] := by
    rw [List.rtake, List.length_append, List.length_singleton,
      List.drop_append_of_le_length (by omega)]
  rw [grown, push, length_rtake, List.rtake]
  congr 1
  by_cases full : window ≤ past.length
  · rw [if_pos (Nat.min_eq_right full), List.drop_drop, Nat.sub_add_comm full]
  · have unfilled : min past.length window ≠ window := by omega
    rw [if_neg unfilled]
    congr 1
    omega

theorem ofName_step {samples : Samples} {name : String} {past : List Nat}
    (kept : samples.ofName name = past.rtake window) (action : Action) :
    (samples.step action).ofName name = (note name past action).rtake window := by
  cases action with
  | record other sample =>
      rw [step, ofName_record, note]
      by_cases same : other = name
      · rw [same, if_pos rfl, if_pos rfl, kept, push_rtake]
      · rw [if_neg same, if_neg (Ne.symm same), kept]
  | clearName other =>
      rw [step, ofName_clearName, note]
      by_cases same : other = name
      · rw [if_pos same, if_pos same.symm, List.rtake_nil]
      · rw [if_neg same, if_neg (Ne.symm same), kept]
  | clear => rfl

theorem ofName_after (name : String) (actions : List Action) :
    (after actions).ofName name = (recorded name actions).rtake window := by
  have run (samples : Samples) (past : List Nat) (kept : samples.ofName name = past.rtake window) :
      (actions.foldl step samples).ofName name =
        (actions.foldl (note name) past).rtake window := by
    induction actions generalizing samples past with
    | nil => exact kept
    | cons action rest ih => exact ih _ _ (ofName_step kept action)
  exact run .empty [] rfl

theorem rtake_eq_nil_iff (past : List Nat) : past.rtake window = [] ↔ past = [] := by
  rw [← List.length_eq_zero_iff, ← List.length_eq_zero_iff, length_rtake]
  unfold window
  omega

theorem summary_after (actions : List Action) (name : String) :
    (after actions).summary name = Summary.ofSamples ((recorded name actions).rtake window) := by
  rw [summary, ofName_after]

theorem length_rtake_le (past : List Nat) : (past.rtake window).length ≤ window := by
  rw [length_rtake]
  exact Nat.min_le_right _ _

theorem exists_summary {past : List Nat} (some : past ≠ [])
    (fits : (past.rtake window).sum < Span.limit) :
    ∃ summary, Summary.ofSamples (past.rtake window) = .some summary := by
  rw [ne_eq, ← rtake_eq_nil_iff] at some
  obtain ⟨summary, answer, -⟩ := Summary.exists_describes some fits
  exact ⟨summary, answer⟩

/-- Whether an answer sums up the latest of the samples recorded under a name. -/
structure SumsUp (past : List Nat) (answer : Summary.Answer) : Prop where
  none_iff : answer = .none ↔ past = []
  answered : past ≠ [] → (past.rtake window).sum < Span.limit → ∃ summary, answer = .some summary
  count : ∀ summary, answer = .some summary → summary.count = min past.length window
  figures : ∀ summary, answer = .some summary → summary.Describes (past.rtake window)
  average : ∀ summary, answer = .some summary →
    summary.least ≤ summary.average ∧ summary.average ≤ summary.greatest
  nearGreatest : ∀ summary, answer = .some summary →
    summary.least ≤ summary.nearGreatest ∧ summary.nearGreatest ≤ summary.greatest
  place : ∀ summary, answer = .some summary →
    ∃ order : List Nat, order.Perm (past.rtake window) ∧ order.Pairwise (· ≤ ·) ∧
      order[min (ofWord summary.count * 0.95).toUInt64.toNat (summary.count - 1)]? =
        some summary.nearGreatest
  order : ∀ order : List Nat, order.Perm (past.rtake window) → Summary.ofSamples order = answer

/-- Along every run each name is summed up by its own latest samples. -/
theorem sumsUp_after (actions : List Action) (name : String) :
    SumsUp (recorded name actions) ((after actions).summary name) := by
  rw [summary_after]
  generalize recorded name actions = past
  constructor
  case none_iff => rw [Summary.ofSamples_eq_none_iff, rtake_eq_nil_iff]
  case answered => exact exists_summary
  case count =>
    intro summary answer
    rw [(Summary.describes_of_ofSamples answer).count, length_rtake]
  case figures => exact fun summary answer => Summary.describes_of_ofSamples answer
  case average =>
    intro summary answer
    have describes := Summary.describes_of_ofSamples answer
    exact ⟨describes.least_le_average, describes.average_le_greatest⟩
  case nearGreatest =>
    intro summary answer
    have describes := Summary.describes_of_ofSamples answer
    constructor
    · exact describes.least.2 _ describes.nearGreatest
    · exact describes.greatest.2 _ describes.nearGreatest
  case place =>
    intro summary answer
    have describes := Summary.describes_of_ofSamples answer
    rw [describes.count, ← Summary.nearGreatestPlace_eq_double (length_rtake_le past)]
    exact describes.place
  case order => exact fun order perm => Summary.ofSamples_perm perm

example : recorded "a" [.record "a" 3, .clearName "a", .record "a" 5, .record "b" 9, .record "a" 4,
    .clearName "b"] = [5, 4] := by decide

structure Bounded (past : List Nat) (answer : Summary.Answer) : Prop where
  overflow_iff : answer = .overflow ↔ Span.limit ≤ (past.rtake window).sum
  answered : past ≠ [] → (past.rtake window).sum < Span.limit → ∃ summary, answer = .some summary
  divisor : ∀ summary, answer = .some summary → 0 < summary.count ∧ summary.count ≤ window
  figures : ∀ summary, answer = .some summary → summary.greatest < Span.limit ∧
    summary.least ≤ summary.greatest ∧ summary.average ≤ summary.greatest ∧
    summary.nearGreatest ≤ summary.greatest
  short : (∀ sample ∈ past, sample * window < Span.limit) → answer ≠ .overflow

theorem sum_rtake_lt {past : List Nat} (short : ∀ sample ∈ past, sample * window < Span.limit) :
    (past.rtake window).sum < Span.limit := by
  have each : ∀ sample ∈ past.rtake window, sample ≤ (Span.limit - 1) / window := by
    intro sample member
    rw [Nat.le_div_iff_mul_le (by decide)]
    exact Nat.le_sub_one_of_lt (short sample (List.mem_of_mem_drop member))
  calc (past.rtake window).sum
      ≤ (past.rtake window).length * ((Span.limit - 1) / window) :=
        List.sum_le_card_nsmul _ _ each
    _ ≤ window * ((Span.limit - 1) / window) := Nat.mul_le_mul_right _ (length_rtake_le past)
    _ ≤ Span.limit - 1 := Nat.mul_div_le _ _
    _ < Span.limit := by decide

/-- Along every run there is a summary of the samples of a name just when their sum is short enough
for a span, and then every figure is short enough too. -/
theorem bounded_after (actions : List Action) (name : String) :
    Bounded (recorded name actions) ((after actions).summary name) := by
  rw [summary_after]
  generalize recorded name actions = past
  constructor
  case overflow_iff => exact Summary.ofSamples_eq_overflow_iff
  case answered => exact exists_summary
  case divisor =>
    intro summary answer
    have describes := Summary.describes_of_ofSamples answer
    rw [describes.count]
    exact ⟨describes.nonempty, length_rtake_le past⟩
  case figures =>
    intro summary answer
    have describes := Summary.describes_of_ofSamples answer
    have fits : (past.rtake window).sum < Span.limit := by
      rw [← Nat.not_le, ← Summary.ofSamples_eq_overflow_iff, answer]
      simp
    have part := List.le_sum_of_mem describes.greatest.1
    refine ⟨Nat.lt_of_le_of_lt part fits, ?_, describes.average_le_greatest, ?_⟩
    · exact describes.least.2 _ describes.greatest.1
    · exact describes.greatest.2 _ describes.nearGreatest
  case short =>
    intro short
    rw [ne_eq, Summary.ofSamples_eq_overflow_iff, Nat.not_le]
    exact sum_rtake_lt short

/-- Two spans of half the limit are accepted, but cannot be summed up. -/
theorem halves_overflow : Span.limit / 2 < Span.limit ∧
    (after [.record "a" (Span.limit / 2), .record "a" (Span.limit / 2)]).summary "a" =
      .overflow := by
  refine ⟨by decide, ?_⟩
  rw [summary, ofName_after, Summary.ofSamples_eq_overflow_iff]
  decide

end Reckoner.Samples
