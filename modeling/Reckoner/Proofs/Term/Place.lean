import Reckoner.Proofs.Term.Grammar
import Reckoner.Proofs.Token.Partition

/-!
The places of terms. The position of every node is where its token stands in the source: its name is
spelled there, or its number starts there. Between a name and its parenthesis, and from there to the
argument, stand blanks only, so that positions grow on the way down.
-/

namespace Reckoner.Term

open Reckoner.Text Reckoner.Alphabet Reckoner.Token
open String (utf8Len)
open String.Pos.Raw (IsValid extract get?)

mutual

def nodes : Term → List Term
  | .number value position => [.number value position]
  | .variable name position => [.variable name position]
  | .call name arguments position => .call name arguments position :: nodesAll arguments

def nodesAll : List Term → List Term
  | [] => []
  | term :: rest => nodes term ++ nodesAll rest

end

structure Spells (source : String) (position : Nat) (name : String) : Prop where
  start_valid : IsValid source ⟨position⟩
  stop_valid : IsValid source ⟨position + name.utf8ByteSize⟩
  slice : extract source ⟨position⟩ ⟨position + name.utf8ByteSize⟩ = name

/-- From an offset of the source on, `c` is the first character that is not blank, and it stands at
`position`. -/
structure FirstSolid (source : String) (offset position : Nat) (c : Char) : Prop where
  le : offset ≤ position
  found : get? source ⟨position⟩ = some c
  solid : isBlank c = false
  blank : ∀ between d, offset ≤ between → between < position →
    get? source ⟨between⟩ = some d → isBlank d = true

structure StartsNumeral (source : String) (position : Nat) (numeral : String) : Prop where
  spells : Spells source position numeral
  isNumeral : IsNumeral numeral.toList
  stops : ∀ c, get? source ⟨position + numeral.utf8ByteSize⟩ = some c →
    isDigit c = false ∧ isPoint c = false

/-- A node stands in the source where its position says. -/
def Located (source : String) : Term → Prop
  | .number value position =>
      ∃ numeral, StartsNumeral source position numeral ∧ leadingNumber numeral = value
  | .variable name position => Spells source position name
  | .call name arguments position =>
      Spells source position name ∧ ∃ argument parenthesis first, arguments = [argument] ∧
        FirstSolid source (position + name.utf8ByteSize) parenthesis '(' ∧
          FirstSolid source (parenthesis + 1) argument.position first

/-- A term stands in the source behind an offset, with only blanks in front of it. -/
structure Placed (source : String) (offset : Nat) (term : Term) : Prop where
  root : ∃ first, FirstSolid source offset term.position first
  located : ∀ node ∈ term.nodes, Located source node
  ascending : term.nodes.Pairwise fun above below => above.position < below.position

theorem nodes_call_singleton (name : String) (argument : Term) (position : Nat) :
    (call name [argument] position).nodes = .call name [argument] position :: argument.nodes := by
  simp [nodes, nodesAll]

theorem exists_nodes_cons (term : Term) : ∃ below, term.nodes = term :: below := by
  cases term <;> simp [nodes]

section
variable {source : String} {before gap after rest : List Char}

theorem spells_of_split {token : Token}
    (split : source.toList = before ++ token.text.toList ++ after)
    (position : token.position = utf8Len before) : Spells source token.position token.text := by
  obtain ⟨start, stop, slice⟩ := slice_iff.mpr ⟨before, after, split, position⟩
  exact ⟨start, stop, slice⟩

theorem firstSolid_of_split {c : Char} (split : source.toList = before ++ gap ++ c :: after)
    (blank : ∀ d ∈ gap, isBlank d = true) (solid : isBlank c = false) :
    FirstSolid source (utf8Len before) (utf8Len (before ++ gap)) c := by
  constructor
  case le =>
    rw [String.utf8Len_append]
    exact Nat.le_add_right _ _
  case found => exact (get?_eq_some_iff source _ c).mpr ⟨before ++ gap, after, split, rfl⟩
  case solid => exact solid
  case blank =>
    intro between d behind inside found
    obtain ⟨front, later, split', rfl⟩ := (get?_eq_some_iff source between d).mp found
    rw [List.append_assoc] at split
    obtain ⟨read, rfl, ahead⟩ := exists_of_utf8Len_le (split.symm.trans split') behind
    have shorter : utf8Len read ≤ utf8Len gap := by
      rw [String.utf8Len_append, String.utf8Len_append] at inside
      omega
    obtain ⟨unread, rfl, left⟩ := exists_of_utf8Len_le ahead.symm shorter
    cases unread with
    | nil => simp at inside
    | cons e unread =>
        cases left
        exact blank d (by simp)

theorem startsNumeral_of_munched {token : Token}
    (split : source.toList = before ++ token.text.toList ++ after)
    (position : token.position = utf8Len before) {previous : Option Char}
    (munched : Munched previous after.head? token) (number : token.kind = .number) :
    StartsNumeral source token.position token.text := by
  constructor
  case spells => exact spells_of_split split position
  case isNumeral => exact munched.number_iff.mp number
  case stops =>
    intro c found
    have next := charAfter?_eq split position
    rw [charAfter?, stop] at next
    exact munched.number_stops number c (next.symm.trans found)

end

theorem exists_first {source : String} {before rest : List Char} {token : Token}
    {tokens : List Token} (split : source.toList = before ++ rest)
    (cuts : Cuts before rest (token :: tokens)) :
    ∃ read ahead first, source.toList = read ++ token.text.toList ++ ahead ∧
      token.position = utf8Len read ∧ Munched read.getLast? ahead.head? token ∧
        token.text.toList.head? = some first ∧
          FirstSolid source (utf8Len before) token.position first ∧
            Cuts (read ++ token.text.toList) ahead tokens := by
  obtain ⟨gap, ahead, rfl, blank, position, munched, cutsAhead⟩ := cuts.first
  obtain ⟨first, run, text⟩ := List.exists_cons_of_ne_nil (cuts.filled token List.mem_cons_self)
  have solid := cuts.solid token List.mem_cons_self first (by simp [text])
  have placed : FirstSolid source (utf8Len before) token.position first := by
    rw [position]
    have joined : source.toList = before ++ gap ++ first :: (run ++ ahead) := by
      simp [split, text]
    exact firstSolid_of_split joined blank solid
  exact ⟨before ++ gap, ahead, first, by simp [split], position, munched, by simp [text], placed,
    cutsAhead⟩

theorem placed_leaf {source : String} {before rest : List Char} {token : Token}
    {tokens : List Token} {leaf : Term} (split : source.toList = before ++ rest)
    (cuts : Cuts before rest (token :: tokens)) (found : leaf? token = some leaf) :
    Placed source (utf8Len before) leaf := by
  obtain ⟨read, ahead, first, split, position, munched, -, placed, -⟩ := exists_first split cuts
  unfold leaf? at found
  split at found
  · rename_i number
    cases found
    constructor
    case root => exact ⟨first, placed⟩
    case located =>
      have starts := startsNumeral_of_munched split position munched number
      simpa [nodes, Located] using ⟨token.text, starts, rfl⟩
    case ascending => simp [nodes]
  · cases found
    constructor
    case root => exact ⟨first, placed⟩
    case located => simpa [nodes, Located] using spells_of_split split position
    case ascending => simp [nodes]
  · contradiction

theorem placed_call {source : String} {before rest : List Char} {opening : Opening}
    {tokens : List Token} {argument : Term} (split : source.toList = before ++ rest)
    (cuts : Cuts before rest (opening.name :: opening.parenthesis :: tokens))
    (inner : ∀ read ahead, source.toList = read ++ ahead → Cuts read ahead tokens →
      Placed source (utf8Len read) argument) :
    Placed source (utf8Len before) (opening.call argument) := by
  obtain ⟨read, ahead, first, named, position, -, -, root, cuts⟩ := exists_first split cuts
  obtain ⟨read', ahead', paren, opened, position', munched', head, next, cuts⟩ :=
    exists_first named cuts
  have parenthesis := munched'.toList_of_isParen opening.isOpen
  have below := inner _ _ opened cuts
  have behindName : utf8Len (read ++ opening.name.text.toList) =
      opening.name.position + opening.name.text.utf8ByteSize := by
    rw [String.utf8Len_append, position, String.utf8Len_toList]
  have behindParenthesis : utf8Len (read' ++ opening.parenthesis.text.toList) =
      opening.parenthesis.position + 1 := by
    rw [String.utf8Len_append, position', parenthesis]
    rfl
  have isOpen : paren = '(' := by simpa [parenthesis] using head.symm
  subst isOpen
  rw [behindName] at next
  rw [behindParenthesis] at below
  obtain ⟨first', start⟩ := below.root
  constructor
  case root => exact ⟨first, root⟩
  case located =>
    rw [Opening.call, nodes_call_singleton]
    refine List.forall_mem_cons.mpr ⟨⟨spells_of_split named position, ?_⟩, below.located⟩
    exact ⟨argument, opening.parenthesis.position, first', rfl, next, start⟩
  case ascending =>
    rw [Opening.call, nodes_call_singleton]
    refine List.pairwise_cons.mpr ⟨?_, below.ascending⟩
    have step : opening.name.position < argument.position := by
      have le := next.le
      have le' := start.le
      omega
    obtain ⟨more, nodes⟩ := exists_nodes_cons argument
    have ascending := below.ascending
    rw [nodes] at ascending ⊢
    refine List.forall_mem_cons.mpr ⟨step, ?_⟩
    intro node member
    exact step.trans ((List.pairwise_cons.mp ascending).1 node member)

theorem placed_nested {source : String} (openings : List Opening) {token : Token} {leaf : Term}
    (found : leaf? token = some leaf) {tokens : List Token} :
    ∀ before rest, source.toList = before ++ rest →
      Cuts before rest (spelled openings ++ token :: tokens) →
        Placed source (utf8Len before) (nested openings leaf) := by
  induction openings with
  | nil => exact fun before rest split cuts => placed_leaf split cuts found
  | cons opening openings ih => exact fun before rest split cuts => placed_call split cuts ih

/-- The term of a source stands in it, with only blanks in front. -/
theorem placed_of_parse (source : String) (term : Term)
    (read : parse (scan source) = .ok (some term)) : Placed source 0 term := by
  obtain ⟨openings, rest, split, -, reads⟩ := exists_reads (scan source)
  obtain ⟨token, leaf, head, found, rfl⟩ := (reads.some_iff term).mp read
  obtain ⟨tokens, rfl⟩ := List.head?_eq_some_iff.mp head
  apply placed_nested openings found [] source.toList rfl
  rw [← split]
  exact scan_cuts source

theorem placed_spaced_call :
    parse (scan "\u3000Sin ( x)") = .ok (some (.call "Sin" [.variable "x" 9] 3)) ∧
      Placed "\u3000Sin ( x)" 0 (.call "Sin" [.variable "x" 9] 3) := by
  have read : parse (scan "\u3000Sin ( x)") = .ok (some (.call "Sin" [.variable "x" 9] 3)) := by
    have text : "\u3000Sin ( x)".toList =
        '\u3000' :: ('S' :: ['i', 'n'] ++ (' ' :: ('(' :: [] ++ (' ' :: ('x' :: [] ++
          (')' :: [] ++ [])))))) := by decide
    rw [scan, text, scanFrom_blank rfl,
      scanFrom_run rfl (List.all_eq_true.mp rfl) (by simp; decide), scanFrom_blank rfl,
      scanFrom_run rfl (by simp) (fun _ _ => rfl), scanFrom_blank rfl,
      scanFrom_run rfl (by simp) (by simp; decide), scanFrom_run rfl (by simp) (by simp),
      scanFrom_nil]
    rfl
  exact ⟨read, placed_of_parse _ _ read⟩

end Reckoner.Term
