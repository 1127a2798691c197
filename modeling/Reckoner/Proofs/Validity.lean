import Mathlib.Data.List.Basic
import Reckoner.Validity

/-!
Theory of validity. The counter of open parentheses accepts just the texts whose parentheses are a
word of the grammar `S → ε | ( S ) S`. All else of a text goes by uncounted, and a word that stands
inside a text leaves the counter as it was.
-/

namespace Reckoner.Validity

open Alphabet

/-- The words of the grammar `S → ε | ( S ) S`. -/
inductive Nested : List Char → Prop
  | empty : Nested []
  | pair {inner after : List Char} : Nested inner → Nested after →
      Nested ('(' :: inner ++ ')' :: after)

def Closes : Nat → List Char → Prop
  | 0, text => Nested text
  | depth + 1, text =>
      ∃ inner after, text = inner ++ ')' :: after ∧ Nested inner ∧ Closes depth after

theorem Closes.pair {depth : Nat} {inner after : List Char} (nested : Nested inner)
    (closes : Closes depth after) : Closes depth ('(' :: inner ++ ')' :: after) := by
  cases depth with
  | zero => exact Nested.pair nested closes
  | succ depth =>
      obtain ⟨next, later, rfl, nestedNext, closesLater⟩ := closes
      exact ⟨'(' :: inner ++ ')' :: next, later, by simp, nested.pair nestedNext, closesLater⟩

theorem depthAfter?_append (depth : Nat) (read ahead : List Char) :
    depthAfter? depth (read ++ ahead) = (depthAfter? depth read).bind (depthAfter? · ahead) := by
  fun_induction depthAfter? depth read with
  | case1 depth => rfl
  | case2 depth rest ih => simpa [depthAfter?] using ih
  | case3 rest closing => simp [depthAfter?]
  | case4 rest closing outer ih => simpa [depthAfter?] using ih
  | case5 depth c rest notOpening notClosing ih =>
      simpa [depthAfter?, notOpening, notClosing] using ih

theorem depthAfter?_filter (depth : Nat) (text : List Char) :
    depthAfter? depth (text.filter isParenthesis) = depthAfter? depth text := by
  fun_induction depthAfter? depth text with
  | case1 depth => rfl
  | case2 depth rest ih => simpa [depthAfter?, isParenthesis] using ih
  | case3 rest closing => simp [depthAfter?, isParenthesis]
  | case4 rest closing outer ih => simpa [depthAfter?, isParenthesis] using ih
  | case5 depth c rest notOpening notClosing ih =>
      simpa [isParenthesis, notOpening, notClosing] using ih

theorem Nested.depthAfter?_eq {word : List Char} (nested : Nested word) (depth : Nat) :
    depthAfter? depth word = some depth := by
  induction nested generalizing depth with
  | empty => rfl
  | pair _ _ ihInner ihAfter =>
      simp [depthAfter?, depthAfter?_append, ihInner, ihAfter]

theorem closes_of_depthAfter? {depth : Nat} {text : List Char}
    (parentheses : ∀ c ∈ text, isParenthesis c = true)
    (settled : depthAfter? depth text = some 0) : Closes depth text := by
  fun_induction depthAfter? depth text with
  | case1 depth =>
      have none : depth = 0 := by simpa using settled
      rw [none]
      exact Nested.empty
  | case2 depth rest ih =>
      -- The first closer that `rest` leaves over belongs to this opening.
      obtain ⟨inner, after, rfl, nested, closes⟩ :=
        ih (fun c member => parentheses c (List.mem_cons_of_mem _ member)) settled
      exact closes.pair nested
  | case3 rest closing => contradiction
  | case4 rest closing outer ih =>
      have closes := ih (fun c member => parentheses c (List.mem_cons_of_mem _ member)) settled
      exact ⟨[], rest, rfl, Nested.empty, closes⟩
  | case5 depth c rest notOpening notClosing ih =>
      have parenthesis := parentheses c List.mem_cons_self
      simp [isParenthesis, notOpening, notClosing] at parenthesis

theorem isBalanced_iff (text : List Char) :
    isBalanced text = true ↔ Nested (text.filter isParenthesis) := by
  rw [isBalanced, beq_iff_eq, ← depthAfter?_filter]
  constructor
  · exact closes_of_depthAfter? fun c member => (List.mem_filter.mp member).2
  · intro nested
    exact nested.depthAfter?_eq 0

theorem depthAfter?_balance {start depth : Nat} {text : List Char}
    (counted : depthAfter? start text = some depth) :
    depth + text.count ')' = start + text.count '(' := by
  fun_induction depthAfter? start text with
  | case1 start =>
      cases counted
      rfl
  | case2 start rest ih =>
      have balance := ih counted
      rw [List.count_cons_self, List.count_cons_of_ne (by decide)]
      omega
  | case3 rest closing => contradiction
  | case4 rest closing outer ih =>
      have balance := ih counted
      rw [List.count_cons_self, List.count_cons_of_ne (by decide)]
      omega
  | case5 start c rest notOpening notClosing ih =>
      simpa [List.count_cons_of_ne, notOpening, notClosing] using ih counted

theorem exists_excess_of_refused {start : Nat} {text : List Char}
    (refused : depthAfter? start text = none) :
    ∃ read, read <+: text ∧ start + read.count '(' < read.count ')' := by
  fun_induction depthAfter? start text with
  | case1 start => contradiction
  | case2 start rest ih =>
      obtain ⟨read, inside, excess⟩ := ih refused
      refine ⟨'(' :: read, List.cons_prefix_cons.mpr ⟨rfl, inside⟩, ?_⟩
      rw [List.count_cons_self, List.count_cons_of_ne (by decide)]
      omega
  | case3 rest closing => exact ⟨[')'], List.cons_prefix_cons.mpr ⟨rfl, List.nil_prefix⟩, by simp⟩
  | case4 rest closing outer ih =>
      obtain ⟨read, inside, excess⟩ := ih refused
      refine ⟨')' :: read, List.cons_prefix_cons.mpr ⟨rfl, inside⟩, ?_⟩
      rw [List.count_cons_self, List.count_cons_of_ne (by decide)]
      omega
  | case5 start c rest notOpening notClosing ih =>
      obtain ⟨read, inside, excess⟩ := ih refused
      refine ⟨c :: read, List.cons_prefix_cons.mpr ⟨rfl, inside⟩, ?_⟩
      simpa [List.count_cons_of_ne, notOpening, notClosing] using excess

theorem depthAfter?_eq_none_iff (start : Nat) (text : List Char) :
    depthAfter? start text = none ↔
      ∃ read, read <+: text ∧ start + read.count '(' < read.count ')' := by
  constructor
  · exact exists_excess_of_refused
  · rintro ⟨read, ⟨ahead, rfl⟩, excess⟩
    rw [depthAfter?_append]
    cases counted : depthAfter? start read with
    | none => rfl
    | some depth =>
        have balance := depthAfter?_balance counted
        omega

theorem isBalanced_iff_count (text : List Char) :
    isBalanced text = true ↔
      (∀ read, read <+: text → read.count ')' ≤ read.count '(') ∧
        text.count ')' = text.count '(' := by
  rw [isBalanced, beq_iff_eq]
  constructor
  · intro settled
    have balance := depthAfter?_balance settled
    refine ⟨?_, by omega⟩
    intro read inside
    apply Nat.le_of_not_lt
    intro excess
    have refused := (depthAfter?_eq_none_iff 0 text).mpr ⟨read, inside, by omega⟩
    simp [settled] at refused
  · rintro ⟨never, level⟩
    cases counted : depthAfter? 0 text with
    | none =>
        obtain ⟨read, inside, excess⟩ := (depthAfter?_eq_none_iff 0 text).mp counted
        have below := never read inside
        omega
    | some depth =>
        have balance := depthAfter?_balance counted
        have settled : depth = 0 := by omega
        rw [settled]

/-- The answers of `check`, each with the texts that get it. A rule is tried on the texts that all
rules before it let pass. -/
structure Answers (text : List Char) : Prop where
  empty_iff : check text = .error .empty ↔ text = []
  tooLong_iff : check text = .error .tooLong ↔ text ≠ [] ∧ 1000 < text.length
  foreignCharacter_iff : check text = .error .foreignCharacter ↔
    text ≠ [] ∧ text.length ≤ 1000 ∧ ∃ c ∈ text, isAllowed c = false
  unbalanced_iff : check text = .error .unbalanced ↔
    text ≠ [] ∧ text.length ≤ 1000 ∧ (∀ c ∈ text, isAllowed c = true) ∧
      ¬Nested (text.filter isParenthesis)
  ok_iff : check text = .ok () ↔
    text ≠ [] ∧ text.length ≤ 1000 ∧ (∀ c ∈ text, isAllowed c = true) ∧
      Nested (text.filter isParenthesis)

structure Counts (text : List Char) : Prop where
  resumes : ∀ read ahead, text = read ++ ahead →
    depthAfter? 0 text = (depthAfter? 0 read).bind (depthAfter? · ahead)
  balance : ∀ read, read <+: text → ∀ depth, depthAfter? 0 read = some depth →
    depth + read.count ')' = read.count '('
  le_length : ∀ read, read <+: text → ∀ depth, depthAfter? 0 read = some depth →
    depth ≤ read.length
  refused_iff : ∀ read, read <+: text → (depthAfter? 0 read = none ↔
    ∃ start, start <+: read ∧ start.count '(' < start.count ')')

theorem answers (text : List Char) : Answers text := by
  by_cases empty : text = []
  · subst empty
    have answer : check [] = .error .empty := rfl
    constructor <;> simp [answer]
  have filled : text.isEmpty = false := by simpa using empty
  by_cases long : 1000 < text.length
  · have answer : check text = .error .tooLong := by simp [check, filled, maxLength, long]
    have tooLong : ¬text.length ≤ 1000 := Nat.not_le_of_lt long
    constructor <;> simp [answer, empty, long, tooLong]
  have short : text.length ≤ 1000 := Nat.le_of_not_lt long
  by_cases foreign : ∃ c ∈ text, isAllowed c = false
  · have answer : check text = .error .foreignCharacter := by
      simp [check, filled, maxLength, long, foreign]
    have strange : ¬∀ c ∈ text, isAllowed c = true := by simpa using foreign
    constructor <;> simp [answer, empty, short, foreign, strange]
  have allowed : ∀ c ∈ text, isAllowed c = true := by simpa using foreign
  by_cases nested : Nested (text.filter isParenthesis)
  · have balanced : isBalanced text = true := (isBalanced_iff text).mpr nested
    have answer : check text = .ok () := by
      simp [check, filled, maxLength, long, foreign, balanced]
    constructor <;> simp +contextual [answer, empty, short, foreign, allowed, nested]
  · have unbalanced : isBalanced text = false := by
      simpa using mt (isBalanced_iff text).mp nested
    have answer : check text = .error .unbalanced := by
      simp [check, filled, maxLength, long, foreign, unbalanced]
    constructor <;> simp +contextual [answer, empty, short, foreign, allowed, nested]

theorem counts (text : List Char) : Counts text := by
  constructor
  case resumes =>
    rintro read ahead rfl
    exact depthAfter?_append 0 read ahead
  case balance =>
    intro read _ depth counted
    simpa using depthAfter?_balance counted
  case le_length =>
    intro read _ depth counted
    have balance := depthAfter?_balance counted
    have opened : read.count '(' ≤ read.length := List.count_le_length
    omega
  case refused_iff =>
    intro read _
    simpa using depthAfter?_eq_none_iff 0 read

/-- A text is valid if it is not empty, has at most a thousand characters, all of the alphabet, and
nests its parentheses. The first of these that fails is the fault. -/
theorem check_answers (text : String) : Answers text.toList ∧ Counts text.toList :=
  ⟨answers text.toList, counts text.toList⟩

end Reckoner.Validity
