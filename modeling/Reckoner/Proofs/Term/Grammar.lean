import Mathlib.Data.List.Basic
import Reckoner.Term.Grammar

/-!
Theory of the grammar of terms. A list of tokens begins with as many openings of calls as it can,
and the first token behind these decides: it is the leaf of the term, or the place where the list
leaves the grammar.
-/

namespace Reckoner.Term

/-- The opening of a call: the name of a function with an opening parenthesis behind it. -/
structure Opening where
  name : Token
  parenthesis : Token
  isFunction : name.kind = .function
  isOpen : parenthesis.isParen '(' = true

namespace Opening

def tokens (opening : Opening) : List Token :=
  [opening.name, opening.parenthesis]

def call (opening : Opening) (argument : Term) : Term :=
  .call opening.name.text [argument] opening.name.position

end Opening

def spelled (openings : List Opening) : List Token :=
  openings.flatMap Opening.tokens

def nested (openings : List Opening) (leaf : Term) : Term :=
  openings.foldr Opening.call leaf

def leaf? (token : Token) : Option Term :=
  match token.kind with
  | .number => some (.number (leadingNumber token.text) token.position)
  | .variable => some (.variable token.text token.position)
  | _ => none

@[simp] theorem spelled_nil : spelled [] = [] :=
  rfl

@[simp] theorem spelled_cons (opening : Opening) (openings : List Opening) :
    spelled (opening :: openings) = opening.name :: opening.parenthesis :: spelled openings :=
  rfl

@[simp] theorem spelled_eq_nil_iff (openings : List Opening) :
    spelled openings = [] ↔ openings = [] := by
  cases openings <;> simp

def Unopened (tokens : List Token) : Prop :=
  ∀ opening : Opening, ¬opening.tokens <+: tokens

theorem ofTokens_opening (opening : Opening) (rest : List Token) :
    ofTokens (opening.name :: opening.parenthesis :: rest) =
      (ofTokens rest).map opening.call := by
  simp [ofTokens, opening.isFunction, opening.isOpen]
  rfl

theorem ofTokens_spelled (openings : List Opening) (rest : List Token) :
    ofTokens (spelled openings ++ rest) = (ofTokens rest).map (nested openings) := by
  induction openings with
  | nil =>
      rw [spelled_nil, List.nil_append]
      cases ofTokens rest <;> rfl
  | cons opening openings ih =>
      rw [spelled_cons, List.cons_append, List.cons_append, ofTokens_opening, ih]
      cases ofTokens rest <;> rfl

theorem parse_spelled (openings : List Opening) (first : Token) (after : List Token) :
    parse (spelled openings ++ first :: after) =
      (ofTokens (first :: after)).map fun term => some (nested openings term) := by
  have filled : (spelled openings ++ first :: after).isEmpty = false := by simp
  simp only [parse, filled, ofTokens_spelled]
  cases ofTokens (first :: after) <;> rfl

theorem parse_leaf (openings : List Opening) {first : Token} {leaf : Term}
    (found : leaf? first = some leaf) (after : List Token) :
    parse (spelled openings ++ first :: after) = .ok (some (nested openings leaf)) := by
  have read : ofTokens (first :: after) = .ok leaf := by
    unfold leaf? at found
    unfold ofTokens
    cases kind : first.kind <;> simp [kind] at found ⊢ <;> exact found
  rw [parse_spelled, read]
  rfl

theorem parse_unopened (openings : List Opening) {first : Token} {after : List Token}
    (isFunction : first.kind = .function) (unopened : Unopened (first :: after)) :
    parse (spelled openings ++ first :: after) =
      .error (.missingParenthesis first.text first.position) := by
  have read : ofTokens (first :: after) =
      .error (.missingParenthesis first.text first.position) := by
    cases after with
    | nil => simp [ofTokens, isFunction]
    | cons next inner =>
        have closed : next.isParen '(' = false := by
          rw [Bool.eq_false_iff]
          intro isOpen
          exact unopened ⟨first, next, isFunction, isOpen⟩ ⟨inner, rfl⟩
        simp [ofTokens, isFunction, closed]
  rw [parse_spelled, read]
  rfl

theorem parse_stranger (openings : List Opening) {first : Token}
    (noLeaf : leaf? first = none) (noFunction : first.kind ≠ .function) (after : List Token) :
    parse (spelled openings ++ first :: after) =
      .error (.unexpected first.kind first.text first.position) := by
  have read : ofTokens (first :: after) =
      .error (.unexpected first.kind first.text first.position) := by
    unfold leaf? at noLeaf
    unfold ofTokens
    cases kind : first.kind <;> simp [kind] at noLeaf noFunction ⊢
  rw [parse_spelled, read]
  rfl

theorem parse_unfinished {openings : List Opening} (filled : openings ≠ []) :
    parse (spelled openings) = .error .endOfInput := by
  have read := ofTokens_spelled openings []
  rw [List.append_nil] at read
  simp [parse, filled, read, ofTokens, Except.map]

theorem parse_eq_none_iff (tokens : List Token) : parse tokens = .ok none ↔ tokens = [] := by
  cases tokens with
  | nil => simp [parse]
  | cons token rest => cases read : ofTokens (token :: rest) <;> simp [parse, read, Except.map]

theorem exists_spelled_of_ofTokens {tokens : List Token}
    (ended : ofTokens tokens = .error .endOfInput) : ∃ openings, tokens = spelled openings := by
  fun_induction ofTokens tokens with
  | case1 => exact ⟨[], rfl⟩
  | case5 token kind next inner isOpen ih =>
      cases inside : ofTokens inner with
      | ok argument => simp [inside, Except.map] at ended
      | error misfit =>
          simp only [inside, Except.map, Except.error.injEq] at ended
          obtain ⟨openings, rfl⟩ := ih (by rw [inside, ended])
          exact ⟨⟨token, next, kind, isOpen⟩ :: openings, rfl⟩
  | case2 | case3 | case4 | case6 | case7 => simp at ended

theorem ofTokens_induction {p : List Token → Term → Prop}
    (leaf : ∀ token rest term, leaf? token = some term → p (token :: rest) term)
    (call : ∀ token next inner argument, p inner argument →
      p (token :: next :: inner) (.call token.text [argument] token.position))
    {tokens : List Token} {term : Term} (read : ofTokens tokens = .ok term) :
    p tokens term := by
  fun_induction ofTokens tokens generalizing term with
  | case2 token rest kind =>
      cases read
      exact leaf token rest _ (by simp [leaf?, kind])
  | case3 token rest kind =>
      cases read
      exact leaf token rest _ (by simp [leaf?, kind])
  | case5 token kind next inner isOpen ih =>
      cases inside : ofTokens inner with
      | error misfit => simp [inside, Except.map] at read
      | ok argument =>
          simp only [inside, Except.map, Except.ok.injEq] at read
          exact read ▸ call token next inner argument (ih inside)
  | case1 | case4 | case6 | case7 => contradiction

theorem ofTokens_of_parse {tokens : List Token} {term : Term}
    (read : parse tokens = .ok (some term)) : ofTokens tokens = .ok term := by
  have filled : tokens ≠ [] := by
    rintro rfl
    simp [parse] at read
  cases found : ofTokens tokens with
  | error misfit => simp [parse, filled, found, Except.map] at read
  | ok other => simpa [parse, filled, found, Except.map] using read

theorem parse_of_ofTokens {tokens : List Token} {term : Term}
    (read : ofTokens tokens = .ok term) : parse tokens = .ok (some term) := by
  have filled : tokens ≠ [] := by
    rintro rfl
    simp [ofTokens] at read
  simp [parse, filled, read, Except.map]

theorem leaf?_cases {token : Token} {term : Term} (found : leaf? token = some term) :
    (∃ value, term = .number value token.position) ∨
      ∃ name, term = .variable name token.position := by
  unfold leaf? at found
  split at found
  · exact Or.inl ⟨_, (Option.some.inj found).symm⟩
  · exact Or.inr ⟨_, (Option.some.inj found).symm⟩
  · contradiction

theorem exists_openings (tokens : List Token) :
    ∃ openings rest, tokens = spelled openings ++ rest ∧ Unopened rest := by
  by_cases unopened : Unopened tokens
  · exact ⟨[], tokens, rfl, unopened⟩
  · obtain ⟨opening, rest, split⟩ : ∃ opening : Opening, opening.tokens <+: tokens := by
      simpa [Unopened] using unopened
    have shorter : rest.length < tokens.length := by
      rw [← split, List.length_append]
      exact Nat.lt_add_of_pos_left (Nat.succ_pos 1)
    obtain ⟨openings, last, joined, settled⟩ := exists_openings rest
    refine ⟨opening :: openings, last, ?_, settled⟩
    rw [← split, joined]
    rfl
termination_by tokens.length

theorem length_le_of_unopened {rest : List Token} (unopened : Unopened rest)
    {openings others : List Opening} (start : spelled others <+: spelled openings ++ rest) :
    others.length ≤ openings.length := by
  induction openings generalizing others with
  | nil =>
      cases others with
      | nil => exact Nat.le_refl _
      | cons opening others =>
          have first : opening.tokens <+: spelled (opening :: others) :=
            List.prefix_append opening.tokens (spelled others)
          exact absurd (first.trans start) (unopened opening)
  | cons opening openings ih =>
      cases others with
      | nil => exact Nat.zero_le _
      | cons other others =>
          simp only [spelled_cons, List.cons_append, List.cons_prefix_cons] at start
          exact Nat.succ_le_succ (ih start.2.2)

theorem leaf?_isSome_iff (token : Token) :
    (leaf? token).isSome = true ↔ token.kind = .number ∨ token.kind = .variable := by
  unfold leaf?
  cases token.kind <;> simp

/-- The answers of `parse` on a list of tokens that is a row of openings with `rest` behind it. -/
structure Reads (tokens : List Token) (openings : List Opening) (rest : List Token) : Prop where
  none_iff : parse tokens = .ok none ↔ tokens = []
  some_iff : ∀ term, parse tokens = .ok (some term) ↔
    ∃ first leaf, rest.head? = some first ∧ leaf? first = some leaf ∧ term = nested openings leaf
  unread : ∀ first after, rest = first :: after → (leaf? first).isSome = true →
    ∀ others, parse (spelled openings ++ first :: others) = parse tokens
  endOfInput_iff : parse tokens = .error .endOfInput ↔ rest = [] ∧ 1 ≤ openings.length
  missingParenthesis_iff : ∀ name position,
    parse tokens = .error (.missingParenthesis name position) ↔
      ∃ first, rest.head? = some first ∧ first.kind = .function ∧ first.text = name ∧
        first.position = position
  unexpected_iff : ∀ kind text position,
    parse tokens = .error (.unexpected kind text position) ↔
      ∃ first, rest.head? = some first ∧ first.kind ∉ [.number, .variable, .function] ∧
        first.kind = kind ∧ first.text = text ∧ first.position = position

section
variable {tokens : List Token} {openings : List Opening} {first : Token} {after : List Token}

theorem reads_end (split : tokens = spelled openings) : Reads tokens openings [] := by
  by_cases unopened : openings = []
  · have empty : tokens = [] := by simp [split, unopened]
    subst empty
    have answer : parse [] = .ok none := rfl
    constructor <;> simp [answer, unopened]
  · have filled : tokens ≠ [] := by simpa [split] using unopened
    have answer : parse tokens = .error .endOfInput := split ▸ parse_unfinished unopened
    have some : 1 ≤ openings.length := List.length_pos_iff.mpr unopened
    constructor <;> simp [answer, filled, some]

theorem reads_leaf (split : tokens = spelled openings ++ first :: after) {leaf : Term}
    (found : leaf? first = some leaf) : Reads tokens openings (first :: after) := by
  have filled : tokens ≠ [] := by simp [split]
  have answer : parse tokens = .ok (some (nested openings leaf)) :=
    split ▸ parse_leaf openings found after
  have kind : first.kind = .number ∨ first.kind = .variable :=
    (leaf?_isSome_iff first).mp (by simp [found])
  constructor
  case unread =>
    intro other _ same _ others
    cases same
    rw [answer, parse_leaf openings found]
  case some_iff => simp [answer, found, eq_comm]
  all_goals rcases kind with kind | kind <;> simp [answer, filled, kind]

theorem reads_unopened (split : tokens = spelled openings ++ first :: after)
    (isFunction : first.kind = .function) (unopened : Unopened (first :: after)) :
    Reads tokens openings (first :: after) := by
  have filled : tokens ≠ [] := by simp [split]
  have answer : parse tokens = .error (.missingParenthesis first.text first.position) :=
    split ▸ parse_unopened openings isFunction unopened
  have noLeaf : leaf? first = none := by simp [leaf?, isFunction]
  constructor
  case unread =>
    intro other _ same found
    cases same
    simp [noLeaf] at found
  all_goals simp [answer, filled, noLeaf, isFunction]

theorem reads_stranger (split : tokens = spelled openings ++ first :: after)
    (noLeaf : leaf? first = none) (noFunction : first.kind ≠ .function) :
    Reads tokens openings (first :: after) := by
  have filled : tokens ≠ [] := by simp [split]
  have answer : parse tokens = .error (.unexpected first.kind first.text first.position) :=
    split ▸ parse_stranger openings noLeaf noFunction after
  have stranger : first.kind ≠ .number ∧ first.kind ≠ .variable := by
    rw [← not_or, ← leaf?_isSome_iff, noLeaf]
    exact Bool.noConfusion
  constructor
  case unread =>
    intro other _ same found
    cases same
    simp [noLeaf] at found
  all_goals simp [answer, filled, noLeaf, noFunction, stranger]

end

theorem exists_reads (tokens : List Token) :
    ∃ (openings : List Opening) (rest : List Token), tokens = spelled openings ++ rest ∧
      Unopened rest ∧ Reads tokens openings rest := by
  obtain ⟨openings, rest, split, unopened⟩ := exists_openings tokens
  refine ⟨openings, rest, split, unopened, ?_⟩
  cases rest with
  | nil => exact reads_end (split.trans (List.append_nil _))
  | cons first after =>
      cases found : leaf? first with
      | some leaf => exact reads_leaf split found
      | none =>
          by_cases isFunction : first.kind = .function
          · exact reads_unopened split isFunction unopened
          · exact reads_stranger split found isFunction

/-- A list of tokens has a longest row of openings at its head, and `parse` answers by the first
token behind it. -/
theorem parse_reads (tokens : List Token) :
    ∃ (openings : List Opening) (rest : List Token), tokens = spelled openings ++ rest ∧
      (∀ others : List Opening, spelled others <+: tokens → others.length ≤ openings.length) ∧
        Reads tokens openings rest := by
  obtain ⟨openings, rest, split, unopened, reads⟩ := exists_reads tokens
  exact ⟨openings, rest, split, fun others => split ▸ length_le_of_unopened unopened, reads⟩

end Reckoner.Term
