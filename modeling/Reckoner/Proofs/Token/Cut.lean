import Reckoner.Proofs.Text.Slice
import Reckoner.Proofs.Token.Munch
import Reckoner.Proofs.Token.Scan

/-!
Theory of cutting. A list of tokens cuts a text if the tokens stand in the text one behind the
other, each taking in all that it can, with nothing but blanks between them. A text is cut in one
way only, and scanning finds it.
-/

namespace Reckoner.Token

open Reckoner.Text Reckoner.Alphabet
open String (utf8Len)

def Covers (token : Token) (offset : Nat) : Prop :=
  token.position ≤ offset ∧ offset < token.stop

/-- The tokens cut `rest`, which stands behind `before` in the source. -/
structure Cuts (before rest : List Char) (tokens : List Token) : Prop where
  disjoint : tokens.Pairwise fun left right => left.stop ≤ right.position
  filled : ∀ token ∈ tokens, token.text.toList ≠ []
  solid : ∀ token ∈ tokens, ∀ c ∈ token.text.toList, isBlank c = false
  placed : ∀ token ∈ tokens, ∃ front after, rest = front ++ token.text.toList ++ after ∧
    token.position = utf8Len (before ++ front) ∧
      Munched (before ++ front).getLast? after.head? token
  outside : ∀ front c after, rest = front ++ c :: after →
    (∀ token ∈ tokens, ¬token.Covers (utf8Len (before ++ front))) → isBlank c = true

theorem stop_eq (token : Token) : token.stop = token.position + utf8Len token.text.toList := by
  rw [stop, String.utf8Len_toList]

namespace Cuts

variable {before rest : List Char} {tokens : List Token}

theorem done (before : List Char) : Cuts before [] [] := by
  constructor <;> simp

theorem eq_nil (cuts : Cuts before [] tokens) : tokens = [] := by
  apply List.eq_nil_iff_forall_not_mem.mpr
  intro token member
  obtain ⟨front, after, split, _⟩ := cuts.placed token member
  have empty : token.text.toList = [] := by
    simp only [List.nil_eq, List.append_eq_nil_iff] at split
    exact split.1.2
  exact cuts.filled token member empty

theorem blank {c : Char} (blank : isBlank c = true) (cuts : Cuts (before ++ [c]) rest tokens) :
    Cuts before (c :: rest) tokens := by
  constructor
  case disjoint => exact cuts.disjoint
  case filled => exact cuts.filled
  case solid => exact cuts.solid
  case placed =>
    intro token member
    obtain ⟨front, after, rfl, position, munched⟩ := cuts.placed token member
    refine ⟨c :: front, after, rfl, ?_, ?_⟩
    · rwa [List.append_cons]
    · rwa [List.append_cons]
  case outside =>
    intro front d after split uncovered
    cases front with
    | nil =>
        cases split
        exact blank
    | cons e front =>
        cases split
        rw [List.append_cons] at uncovered
        exact cuts.outside front d after rfl uncovered

theorem token {token : Token} (filled : token.text.toList ≠ [])
    (solid : ∀ c ∈ token.text.toList, isBlank c = false)
    (position : token.position = utf8Len before)
    (munched : Munched before.getLast? rest.head? token)
    (cuts : Cuts (before ++ token.text.toList) rest tokens) :
    Cuts before (token.text.toList ++ rest) (token :: tokens) := by
  have stop : token.stop = utf8Len (before ++ token.text.toList) := by
    rw [stop_eq, position, String.utf8Len_append]
  constructor
  case disjoint =>
    refine List.pairwise_cons.mpr ⟨?_, cuts.disjoint⟩
    intro later member
    obtain ⟨front, after, _, place, _⟩ := cuts.placed later member
    rw [stop, place, String.utf8Len_append _ front]
    exact Nat.le_add_right _ _
  case filled => exact List.forall_mem_cons.mpr ⟨filled, cuts.filled⟩
  case solid => exact List.forall_mem_cons.mpr ⟨solid, cuts.solid⟩
  case placed =>
    intro other member
    rcases List.mem_cons.mp member with rfl | later
    · exact ⟨[], rest, rfl, by simpa using position, by simpa using munched⟩
    · obtain ⟨front, after, rfl, place, munchedOther⟩ := cuts.placed other later
      refine ⟨token.text.toList ++ front, after, by simp, ?_, ?_⟩
      · rwa [← List.append_assoc]
      · rwa [← List.append_assoc]
  case outside =>
    intro front c after split uncovered
    by_cases inside : utf8Len front < utf8Len token.text.toList
    · have covered : token.Covers (utf8Len (before ++ front)) := by
        rw [Covers, stop, position, String.utf8Len_append, String.utf8Len_append]
        omega
      exact absurd covered (uncovered token List.mem_cons_self)
    · obtain ⟨more, rfl, rfl⟩ := exists_of_utf8Len_le split (Nat.le_of_not_lt inside)
      rw [← List.append_assoc] at uncovered
      exact cuts.outside more c after rfl fun later member =>
        uncovered later (List.mem_cons_of_mem _ member)

theorem tail {token : Token} (cuts : Cuts before rest (token :: tokens))
    (position : token.position = utf8Len before) :
    ∃ after, rest = token.text.toList ++ after ∧ Munched before.getLast? after.head? token ∧
      Cuts (before ++ token.text.toList) after tokens := by
  obtain ⟨front, after, rfl, place, munched⟩ := cuts.placed token List.mem_cons_self
  have none : front = [] := by
    rw [position, String.utf8Len_append] at place
    exact String.utf8Len_eq_zero.mp (by omega)
  subst none
  have stop : token.stop = utf8Len (before ++ token.text.toList) := by
    rw [stop_eq, position, String.utf8Len_append]
  obtain ⟨behind, disjoint⟩ := List.pairwise_cons.mp cuts.disjoint
  refine ⟨after, rfl, by simpa using munched, ?_⟩
  constructor
  case disjoint => exact disjoint
  case filled => exact (List.forall_mem_cons.mp cuts.filled).2
  case solid => exact (List.forall_mem_cons.mp cuts.solid).2
  case placed =>
    intro later member
    obtain ⟨front, last, split, place', munched'⟩ :=
      cuts.placed later (List.mem_cons_of_mem _ member)
    have beyond : utf8Len token.text.toList ≤ utf8Len front := by
      have below := behind later member
      rw [stop, place', String.utf8Len_append, String.utf8Len_append] at below
      omega
    rw [List.nil_append, List.append_assoc] at split
    obtain ⟨more, rfl, rfl⟩ := exists_of_utf8Len_le split beyond
    rw [← List.append_assoc] at place' munched'
    exact ⟨more, last, by simp, place', munched'⟩
  case outside =>
    rintro front c last rfl uncovered
    apply cuts.outside (token.text.toList ++ front) c last (by simp)
    rw [← List.append_assoc]
    refine List.forall_mem_cons.mpr ⟨?_, uncovered⟩
    intro covered
    have inside := covered.2
    rw [stop, String.utf8Len_append _ front] at inside
    omega

theorem skip {c : Char} (cuts : Cuts before (c :: rest) tokens)
    (away : ∀ token ∈ tokens, token.position ≠ utf8Len before) :
    isBlank c = true ∧ Cuts (before ++ [c]) rest tokens := by
  constructor
  · apply cuts.outside [] c rest rfl
    intro token member covered
    obtain ⟨front, after, _, place, _⟩ := cuts.placed token member
    have start := covered.1
    rw [place, List.append_nil, String.utf8Len_append] at start
    exact away token member (by rw [place, String.utf8Len_append]; omega)
  · constructor
    case disjoint => exact cuts.disjoint
    case filled => exact cuts.filled
    case solid => exact cuts.solid
    case placed =>
      intro token member
      obtain ⟨front, after, split, place, munched⟩ := cuts.placed token member
      cases front with
      | nil => exact absurd (by simpa using place) (away token member)
      | cons d front =>
          cases split
          rw [List.append_cons] at place munched
          exact ⟨front, after, rfl, place, munched⟩
    case outside =>
      rintro front d after rfl uncovered
      rw [← List.append_cons] at uncovered
      exact cuts.outside (c :: front) d after rfl uncovered

theorem away (cuts : Cuts before rest tokens)
    (first : ∀ token, tokens.head? = some token → token.position ≠ utf8Len before) :
    ∀ token ∈ tokens, token.position ≠ utf8Len before := by
  cases tokens with
  | nil => simp
  | cons token tokens =>
      have here := first token rfl
      obtain ⟨front, after, _, place, _⟩ := cuts.placed token List.mem_cons_self
      obtain ⟨behind, _⟩ := List.pairwise_cons.mp cuts.disjoint
      refine List.forall_mem_cons.mpr ⟨here, ?_⟩
      intro later member
      have below := behind later member
      rw [stop_eq] at below
      rw [place, String.utf8Len_append] at here
      rw [place, String.utf8Len_append] at below
      omega

theorem first {token : Token} (cuts : Cuts before rest (token :: tokens)) :
    ∃ gap after, rest = gap ++ token.text.toList ++ after ∧ (∀ c ∈ gap, isBlank c = true) ∧
      token.position = utf8Len (before ++ gap) ∧
        Munched (before ++ gap).getLast? after.head? token ∧
          Cuts (before ++ gap ++ token.text.toList) after tokens := by
  induction rest generalizing before with
  | nil => exact absurd cuts.eq_nil (List.cons_ne_nil token tokens)
  | cons c rest ih =>
      by_cases here : token.position = utf8Len before
      · obtain ⟨after, split, munched, cutsAfter⟩ := cuts.tail here
        refine ⟨[], after, ?_⟩
        simpa [split, here] using ⟨munched, cutsAfter⟩
      · have away := cuts.away fun other head => by
          cases head
          exact here
        obtain ⟨blank, cutsRest⟩ := cuts.skip away
        obtain ⟨gap, after, rfl, blanks, position, munched, cutsAfter⟩ := ih cutsRest
        rw [← List.append_cons] at position munched cutsAfter
        exact ⟨c :: gap, after, rfl, List.forall_mem_cons.mpr ⟨blank, blanks⟩, position, munched,
          cutsAfter⟩

theorem eq_scanFrom (cuts : Cuts before rest tokens) :
    tokens = scanFrom (utf8Len before) rest := by
  induction size : rest.length using Nat.strongRecOn generalizing before rest tokens with
  | ind length ih =>
      by_cases first : ∃ token, tokens.head? = some token ∧ token.position = utf8Len before
      · obtain ⟨token, head, position⟩ := first
        obtain ⟨later, rfl⟩ := List.head?_eq_some_iff.mp head
        obtain ⟨after, rfl, munched, cutsAfter⟩ := cuts.tail position
        obtain ⟨c, run, text⟩ := List.exists_cons_of_ne_nil (cuts.filled token List.mem_cons_self)
        have solid := cuts.solid token List.mem_cons_self c (by simp [text])
        obtain ⟨kind, extended, stops, _⟩ := (munched_iff text).mp munched
        rw [text] at size cutsAfter
        have shorter : after.length < length := by
          rw [← size, List.cons_append, List.length_cons, List.length_append]
          omega
        have same := ih after.length shorter cutsAfter rfl
        have spelled : token.text = String.ofList (c :: run) := by
          rw [← text, String.ofList_toList]
        rw [text, scanFrom_run solid extended stops, ← String.utf8Len_append, ← same, ← spelled,
          ← kind, ← position]
      · have away := cuts.away fun token head position => first ⟨token, head, position⟩
        cases rest with
        | nil => rw [cuts.eq_nil, scanFrom_nil]
        | cons c rest =>
            obtain ⟨blank, cutsAfter⟩ := cuts.skip away
            have same := ih rest.length (by simp [← size]) cutsAfter rfl
            rw [scanFrom_blank blank, same]
            simp

end Cuts

theorem extendsBy_of_head_dropWhile {first next : Char} {rest : List Char}
    (head : (rest.dropWhile (extendsBy first)).head? = some next) :
    extendsBy first next = false := by
  have stop := List.head?_dropWhile_not (extendsBy first) rest
  rw [head] at stop
  simpa using stop

theorem isLetter_of_getLast? {before run : List Char} {first last : Char}
    (extended : ∀ c ∈ run, extendsBy first c = true)
    (found : (before ++ first :: run).getLast? = some last) (letter : isLetter last = true) :
    isLetter first = true := by
  rw [List.getLast?_append_cons] at found
  rcases List.mem_cons.mp (List.mem_of_getLast? found) with same | member
  · rwa [← same]
  · exact isLetter_of_extendsBy (extended last member) letter

theorem scanFrom_cuts (position : Nat) (rest : List Char) :
    ∀ before : List Char, position = utf8Len before →
      (∀ c d, before.getLast? = some c → rest.head? = some d →
        isLetter d = true → isLetter c = false) →
      Cuts before rest (scanFrom position rest) := by
  fun_induction scanFrom position rest with
  | case1 position =>
      intro before _ _
      exact Cuts.done before
  | case2 position c rest blank ih =>
      intro before start _
      apply Cuts.blank blank
      apply ih
      · simp [start]
      · intro d _ last _ _
        have same : c = d := by simpa using last
        rw [← same, Bool.eq_false_iff]
        intro letter
        rw [isBlank_of_isLetter letter] at blank
        contradiction
  | case3 position c rest solid text ih =>
      intro before start apart
      let token : Token := { kind := kindOf c text, text, position }
      have extended : ∀ d ∈ rest.takeWhile (extendsBy c), extendsBy c d = true :=
        List.all_eq_true.mp List.all_takeWhile
      have spelled : token.text.toList = c :: rest.takeWhile (extendsBy c) := String.toList_ofList
      have joined : c :: rest = token.text.toList ++ rest.dropWhile (extendsBy c) := by
        rw [spelled, List.cons_append, List.takeWhile_append_dropWhile]
      rw [joined]
      change Cuts before _ (token :: _)
      apply Cuts.token
      case filled => simp [spelled]
      case solid =>
        rw [spelled]
        refine List.forall_mem_cons.mpr ⟨by simpa using solid, ?_⟩
        exact fun d member => isBlank_of_extendsBy (extended d member)
      case position => exact start
      case munched =>
        refine (munched_iff spelled).mpr
          ⟨rfl, extended, fun _ => extendsBy_of_head_dropWhile, ?_⟩
        exact fun letter d last => apart d c last rfl letter
      case cuts =>
        apply ih
        · calc position + text.utf8ByteSize
              = utf8Len before + utf8Len text.toList := by rw [start, String.utf8Len_toList]
            _ = utf8Len (before ++ token.text.toList) := (String.utf8Len_append ..).symm
        · intro d next last head letter
          rw [Bool.eq_false_iff]
          intro letterLast
          rw [spelled] at last
          have word := isLetter_of_getLast? extended last letterLast
          have stop := extendsBy_of_head_dropWhile head
          rw [extendsBy_of_isLetter word, letter] at stop
          contradiction

end Reckoner.Token
