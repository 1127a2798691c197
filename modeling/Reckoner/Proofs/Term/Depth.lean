import Reckoner.Proofs.Expression.Ending

/-!
How deep terms nest. Each call of a term takes up four characters of a valid text: two for the
shortest name, one for the parenthesis that reading takes in, and one for that which only validity
asks for. So the thousand characters of a valid text leave room for 249 calls around a leaf, and a
tower of so many calls shows that they may all be there. Reading calls itself once for each call
that is opened, which takes up two tokens.
-/

namespace Reckoner

/-- The text of a row of calls around a variable, each call the argument of the one before it. -/
def tower : Nat → List Char
  | 0 => ['x']
  | height + 1 => 'l' :: 'n' :: '(' :: tower height ++ [')']

theorem length_tower (height : Nat) : (tower height).length = 4 * height + 1 := by
  induction height with
  | zero => rfl
  | succ height ih =>
      simp only [tower, List.length_append, List.length_cons, ih]
      rfl

theorem mem_tower {height : Nat} {c : Char} (member : c ∈ tower height) :
    c ∈ ['l', 'n', '(', 'x', ')'] := by
  induction height with
  | zero =>
      rw [List.mem_singleton.mp member]
      decide
  | succ height ih =>
      simp only [tower, List.cons_append, List.mem_cons, List.mem_append] at member
      simp only [List.mem_cons] at ih ⊢
      tauto

theorem nested_tower (height : Nat) :
    Validity.Nested ((tower height).filter Alphabet.isParenthesis) := by
  induction height with
  | zero => exact Validity.Nested.empty
  | succ height ih =>
      have filtered : (tower (height + 1)).filter Alphabet.isParenthesis =
          '(' :: (tower height).filter Alphabet.isParenthesis ++ [')'] := by
        simp [tower, Alphabet.isParenthesis]
      rw [filtered]
      exact ih.pair Validity.Nested.empty

theorem check_tower {height : Nat} (short : height ≤ 249) :
    Validity.check (tower height) = .ok () := by
  have length := length_tower height
  refine (Validity.answers (tower height)).ok_iff.mpr ⟨?_, by omega, ?_, nested_tower height⟩
  · exact List.ne_nil_of_length_pos (by omega)
  · intro c member
    have allowed : ['l', 'n', '(', 'x', ')'].all Alphabet.isAllowed = true := by decide
    exact List.all_eq_true.mp allowed c (mem_tower member)

theorem ofTokens_tower (height position : Nat) (after : List Char)
    (ends : ∀ d, after.head? = some d → Token.extendsBy 'x' d = false) :
    ∃ term, Term.ofTokens (Token.scanFrom position (tower height ++ after)) = .ok term ∧
      term.callDepth = height := by
  induction height generalizing position after with
  | zero =>
      have scanned : Token.scanFrom position (tower 0 ++ after) =
          ⟨.variable, "x", position⟩ :: Token.scanFrom (position + 1) after :=
        Token.scanFrom_run rfl (by simp) ends position
      exact ⟨.variable "x" position, by simp [scanned, Term.ofTokens], rfl⟩
  | succ height ih =>
      obtain ⟨argument, read, deep⟩ := ih (position + 3) (')' :: after) (by simp; decide)
      have opened : Token.scanFrom position (tower (height + 1) ++ after) =
          ⟨.function, "ln", position⟩ :: ⟨.parenthesis, "(", position + 2⟩ ::
            Token.scanFrom (position + 3) (tower height ++ ')' :: after) := by
        have text : tower (height + 1) ++ after =
            'l' :: ['n'] ++ ('(' :: [] ++ (tower height ++ ')' :: after)) := by simp [tower]
        rw [text, Token.scanFrom_run rfl (List.all_eq_true.mp rfl) (by simp; decide),
          Token.scanFrom_run rfl (by simp) fun _ _ => rfl]
        rfl
      refine ⟨.call "ln" [argument] position, ?_, by rw [Term.callDepth, deep]⟩
      have isOpen : (⟨.parenthesis, "(", position + 2⟩ : Token).isParen '(' = true := by
        have first : "(".toList.head? = some '(' := by decide
        simp [Token.isParen]
      rw [opened, Term.ofTokens_opening ⟨⟨.function, "ln", position⟩, _, rfl, isOpen⟩, read]
      rfl

namespace Term

open Token Text

/-- Reading that counts: the answer of `ofTokens`, and how often it called itself for it. -/
def ofTokensCounted : List Token → Except Misfit Term × Nat
  | [] => (.error .endOfInput, 0)
  | token :: rest =>
      match token.kind with
      | .number => (.ok (.number (leadingNumber token.text) token.position), 0)
      | .variable => (.ok (.variable token.text token.position), 0)
      | .function =>
          match rest with
          | [] => (.error (.missingParenthesis token.text token.position), 0)
          | next :: inner =>
              if next.isParen '(' then
                let (answer, calls) := ofTokensCounted inner
                (answer.map fun argument => .call token.text [argument] token.position, calls + 1)
              else (.error (.missingParenthesis token.text token.position), 0)
      | kind => (.error (.unexpected kind token.text token.position), 0)

def recursions (tokens : List Token) : Nat :=
  (ofTokensCounted tokens).2

theorem ofTokensCounted_fst (tokens : List Token) :
    (ofTokensCounted tokens).1 = ofTokens tokens := by
  fun_induction ofTokens tokens with
  | case1 => rfl
  | case2 token rest kind | case3 token rest kind =>
      unfold ofTokensCounted
      simp only [kind]
  | case4 token kind => simp [ofTokensCounted, kind]
  | case5 token kind next inner isOpen ih => simp [ofTokensCounted, kind, isOpen, ih]
  | case6 token kind next inner closed => simp [ofTokensCounted, kind, closed]
  | case7 token rest noNumber noVariable noFunction =>
      unfold ofTokensCounted
      split <;> first | contradiction | rfl

theorem two_mul_recursions_le (tokens : List Token) : 2 * recursions tokens ≤ tokens.length := by
  unfold recursions
  fun_induction ofTokensCounted tokens with
  | case5 token kind next inner isOpen answer calls counted ih =>
      rw [counted] at ih
      simp only [List.length_cons]
      omega
  | case1 | case2 | case3 | case4 | case6 | case7 => exact Nat.zero_le _

theorem recursions_opening (opening : Opening) (rest : List Token) :
    recursions (opening.name :: opening.parenthesis :: rest) = recursions rest + 1 := by
  simp [recursions, ofTokensCounted, opening.isFunction, opening.isOpen]

theorem recursions_of_unopened {tokens : List Token} (unopened : Unopened tokens) :
    recursions tokens = 0 := by
  unfold recursions
  fun_induction ofTokensCounted tokens with
  | case5 token kind next inner isOpen =>
      exact absurd ⟨inner, rfl⟩ (unopened ⟨token, next, kind, isOpen⟩)
  | case1 | case2 | case3 | case4 | case6 | case7 => rfl

theorem recursions_spelled (openings : List Opening) {rest : List Token}
    (unopened : Unopened rest) : recursions (spelled openings ++ rest) = openings.length := by
  induction openings with
  | nil => exact recursions_of_unopened unopened
  | cons opening openings ih =>
      rw [spelled_cons, List.cons_append, List.cons_append, recursions_opening, ih,
        List.length_cons]

theorem callDepth_nested (openings : List Opening) {token : Token} {leaf : Term}
    (found : leaf? token = some leaf) : (nested openings leaf).callDepth = openings.length := by
  induction openings with
  | nil => rcases leaf?_cases found with ⟨value, rfl⟩ | ⟨name, rfl⟩ <;> rfl
  | cons opening openings ih =>
      change (nested openings leaf).callDepth + 1 = openings.length + 1
      rw [ih]

def width (tokens : List Token) : Nat :=
  (tokens.flatMap (·.text.toList)).length

theorem width_append (tokens others : List Token) :
    width (tokens ++ others) = width tokens + width others := by
  simp [width]

theorem width_cons (token : Token) (tokens : List Token) :
    width (token :: tokens) = token.text.toList.length + width tokens := by
  rw [width, List.flatMap_cons, List.length_append, width]

theorem width_scan_le (source : String) : width (scan source) ≤ source.toList.length := by
  rw [width, flatMap_scan]
  exact List.length_filter_le _ _

theorem length_le_width {tokens : List Token} (filled : ∀ token ∈ tokens, token.text.toList ≠ []) :
    tokens.length ≤ width tokens := by
  induction tokens with
  | nil => exact Nat.le_refl 0
  | cons token tokens ih =>
      obtain ⟨some, others⟩ := List.forall_mem_cons.mp filled
      have one := List.length_pos_iff.mpr some
      have more := ih others
      rw [width_cons, List.length_cons]
      omega

theorem two_le_length_of_function {previous next : Option Char} {token : Token}
    (munched : Munched previous next token) (function : token.kind = .function) :
    2 ≤ token.text.toList.length := by
  have names : ∀ name ∈ functionNames, 2 ≤ name.toList.length := by decide
  simpa using names _ (munched.function_iff.mp function)

theorem three_mul_le_width {openings : List Opening}
    (munched : ∀ token ∈ spelled openings, ∃ previous next, Munched previous next token) :
    3 * openings.length ≤ width (spelled openings) := by
  induction openings with
  | nil => exact Nat.le_refl 0
  | cons opening openings ih =>
      rw [spelled_cons] at munched ⊢
      obtain ⟨⟨_, _, name⟩, later⟩ := List.forall_mem_cons.mp munched
      obtain ⟨⟨_, _, parenthesis⟩, others⟩ := List.forall_mem_cons.mp later
      have two := two_le_length_of_function name opening.isFunction
      have one := parenthesis.toList_of_isParen opening.isOpen
      have more := ih others
      rw [width_cons, width_cons, one, List.length_singleton, List.length_cons]
      omega

section
variable {source : String} {openings : List Opening} {rest : List Token}

theorem length_le_closings (balanced : Balanced (parentheses (scan source)))
    (split : scan source = spelled openings ++ rest) :
    openings.length ≤ rest.countP (·.isParen ')') := by
  have level := balanced.level
  obtain ⟨opened, unclosed⟩ := countP_spelled openings
  rw [countP_parentheses, countP_parentheses, split, List.countP_append, List.countP_append, opened,
    unclosed] at level
  omega

theorem three_mul_add_le (split : scan source = spelled openings ++ rest) :
    3 * openings.length + rest.length ≤ source.toList.length := by
  have cuts := scan_cuts source
  have front : 3 * openings.length ≤ width (spelled openings) :=
    three_mul_le_width fun token member =>
      ⟨_, _, cuts.munched token (split ▸ List.mem_append_left _ member)⟩
  have behind : rest.length ≤ width rest :=
    length_le_width fun token member =>
      cuts.filled token (split ▸ List.mem_append_right _ member)
  calc 3 * openings.length + rest.length
      ≤ width (spelled openings) + width rest := Nat.add_le_add front behind
    _ = width (scan source) := by rw [split, width_append]
    _ ≤ source.toList.length := width_scan_le source

theorem four_mul_le (balanced : Balanced (parentheses (scan source)))
    (split : scan source = spelled openings ++ rest) :
    4 * openings.length ≤ source.toList.length := by
  have room := three_mul_add_le split
  have closed := length_le_closings balanced split
  have counted : rest.countP (·.isParen ')') ≤ rest.length := List.countP_le_length
  omega

theorem four_mul_add_one_le {first leaf} {after : List Token}
    (balanced : Balanced (parentheses (scan source)))
    (split : scan source = spelled openings ++ first :: after) (found : leaf? first = some leaf) :
    4 * openings.length + 1 ≤ source.toList.length := by
  have room := three_mul_add_le split
  have closed := length_le_closings balanced split
  have other : first.isParen ')' = false := by
    rcases (leaf?_isSome_iff first).mp (by simp [found]) with kind | kind <;>
      simp [Token.isParen, kind]
  have counted : after.countP (·.isParen ')') ≤ after.length := List.countP_le_length
  rw [List.countP_cons_of_neg (by simp [other])] at closed
  rw [List.length_cons] at room
  omega

end

structure Shallow (source : String) : Prop where
  recursions_le : 4 * recursions (scan source) ≤ source.toList.length
  term : ∀ term, parse (scan source) = .ok (some term) →
    recursions (scan source) = term.callDepth ∧
      4 * term.callDepth + 1 ≤ source.toList.length ∧ term.callDepth ≤ 249

theorem shallow_of_check {source : String} (sound : Validity.check source.toList = .ok ()) :
    Shallow source := by
  obtain ⟨-, short, -, pairs⟩ := (Validity.answers source.toList).ok_iff.mp sound
  have balanced := (isBalanced_iff_balanced source).mp
    ((Validity.isBalanced_iff source.toList).mpr pairs)
  obtain ⟨openings, rest, split, unopened, reads⟩ := exists_reads (scan source)
  have counted : recursions (scan source) = openings.length := by
    rw [split, recursions_spelled openings unopened]
  constructor
  case recursions_le => exact counted ▸ four_mul_le balanced split
  case term =>
    intro term read
    obtain ⟨first, leaf, head, found, rfl⟩ := (reads.some_iff term).mp read
    obtain ⟨after, rfl⟩ := List.head?_eq_some_iff.mp head
    have room := four_mul_add_one_le balanced split found
    rw [callDepth_nested openings found]
    exact ⟨counted, room, by omega⟩

/-- A valid text has four characters for every call of its term and one for the leaf, and reading
calls itself at most once for every two tokens, whatever the tokens are. -/
theorem nesting_bounded :
    (∀ source : String, Validity.check source.toList = .ok () → Shallow source) ∧
      ∀ tokens, (ofTokensCounted tokens).1 = ofTokens tokens ∧
        2 * recursions tokens ≤ tokens.length :=
  ⟨fun _ => shallow_of_check, fun tokens =>
    ⟨ofTokensCounted_fst tokens, two_mul_recursions_le tokens⟩⟩

theorem nesting_bounded_tower :
    let source := String.ofList (tower 249)
    Validity.check source.toList = .ok () ∧ Shallow source ∧ source.toList.length = 997 ∧
      ∃ term, parse (scan source) = .ok (some term) ∧ term.callDepth = 249 := by
  intro source
  have text : source.toList = tower 249 := String.toList_ofList
  have sound : Validity.check source.toList = .ok () := text ▸ check_tower (Nat.le_refl 249)
  obtain ⟨term, read, deep⟩ := ofTokens_tower 249 0 [] (by simp)
  rw [List.append_nil, ← text] at read
  exact ⟨sound, nesting_bounded.1 source sound, text ▸ length_tower 249, term,
    parse_of_ofTokens read, deep⟩

end Term

end Reckoner
