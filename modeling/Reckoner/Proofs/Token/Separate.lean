import Reckoner.Proofs.Token.Partition

/-!
White space as a separator of tokens. No token goes on across a blank, so the tokens of two texts
with a blank between them are those of the one and then those of the other, further on in the
source. Each token is cut again from its own text, and so the texts of the tokens, with spaces
between them, make the same kinds and texts once more.
-/

namespace Reckoner.Token

open Reckoner.Text
open String (utf8Len)

def shift (distance : Nat) (token : Token) : Token :=
  { token with position := token.position + distance }

def content (token : Token) : Kind × String :=
  (token.kind, token.text)

theorem content_shift (distance : Nat) : content ∘ shift distance = content :=
  rfl

theorem scanFrom_shift (distance position : Nat) (text : List Char) :
    scanFrom (position + distance) text = (scanFrom position text).map (shift distance) := by
  fun_induction scanFrom position text with
  | case1 position => simp [scanFrom_nil]
  | case2 position c rest blank ih =>
      rw [scanFrom_blank blank, Nat.add_right_comm]
      exact ih
  | case3 position c rest solid text ih =>
      rw [scanFrom.eq_def]
      simp only [solid, Bool.false_eq_true, if_false, List.map_cons]
      rw [← ih, Nat.add_right_comm]
      rfl

theorem scanFrom_append_blank {separator : Char} (blank : isBlank separator = true)
    (position : Nat) (before after : List Char) :
    scanFrom position (before ++ separator :: after) =
      scanFrom position before ++
        scanFrom (position + utf8Len (before ++ [separator])) after := by
  fun_induction scanFrom position before with
  | case1 position => simp [scanFrom_blank blank]
  | case2 position c rest blank' ih =>
      rw [List.cons_append, scanFrom_blank blank', ih, List.cons_append, String.utf8Len_cons]
      congr 2
      omega
  | case3 position c rest solid text ih =>
      have extended : ∀ d ∈ rest.takeWhile (extendsBy c), extendsBy c d = true :=
        List.all_eq_true.mp List.all_takeWhile
      have stops : ∀ d, (rest.dropWhile (extendsBy c) ++ separator :: after).head? = some d →
          extendsBy c d = false := by
        intro d head
        cases left : rest.dropWhile (extendsBy c) with
        | nil =>
            rw [left] at head
            cases head
            rw [Bool.eq_false_iff]
            intro more
            rw [isBlank_of_extendsBy more] at blank
            contradiction
        | cons e others =>
            rw [left] at head
            exact extendsBy_of_head_dropWhile (by rw [left]; exact head)
      have split : c :: rest ++ separator :: after = c :: rest.takeWhile (extendsBy c) ++
          (rest.dropWhile (extendsBy c) ++ separator :: after) := by
        simp [← List.append_assoc]
      have size : text.utf8ByteSize = utf8Len (c :: rest.takeWhile (extendsBy c)) :=
        String.utf8ByteSize_ofList _
      have whole : utf8Len (c :: rest ++ [separator]) =
          utf8Len (c :: rest.takeWhile (extendsBy c)) +
            utf8Len (rest.dropWhile (extendsBy c) ++ [separator]) := by
        rw [← String.utf8Len_append]
        simp [← List.append_assoc]
      rw [split, scanFrom_run (by simpa using solid) extended stops, ← size, ih, whole, size,
        Nat.add_assoc, List.cons_append]

theorem scanFrom_alone {source : String} {token : Token} (member : token ∈ scan source)
    (position : Nat) : scanFrom position token.text.toList = [{ token with position }] := by
  have cuts := scan_cuts source
  obtain ⟨first, run, spelled⟩ := List.exists_cons_of_ne_nil (cuts.filled token member)
  obtain ⟨_, _, _, _, munched⟩ := cuts.placed token member
  obtain ⟨kind, extended, -⟩ := (munched_iff spelled).mp munched
  have solid := cuts.solid token member first (by simp [spelled])
  have same : String.ofList (first :: run) = token.text := by rw [← spelled, String.ofList_toList]
  rw [spelled, ← List.append_nil (first :: run), scanFrom_run solid extended (by simp),
    scanFrom_nil, same, ← kind]

theorem scan_append_blank {separator : Char} (blank : isBlank separator = true)
    (before after : String) :
    scan (before ++ String.singleton separator ++ after) =
      scan before ++
        (scan after).map (shift (before ++ String.singleton separator).utf8ByteSize) := by
  have joined : (before ++ String.singleton separator ++ after).toList =
      before.toList ++ separator :: after.toList := by
    simp
  have size : (before ++ String.singleton separator).utf8ByteSize =
      utf8Len (before.toList ++ [separator]) := by
    rw [← String.utf8Len_toList]
    simp
  rw [scan, joined, scanFrom_append_blank blank, size, scan, scan, ← scanFrom_shift]

theorem content_scan_intercalate (tokens : List Token)
    (alone : ∀ token ∈ tokens, scanFrom 0 token.text.toList = [{ token with position := 0 }]) :
    (scan (" ".intercalate (tokens.map (·.text)))).map content = tokens.map content := by
  induction tokens with
  | nil => simp [scan, scanFrom_nil]
  | cons token tokens ih =>
      obtain ⟨first, others⟩ := List.forall_mem_cons.mp alone
      cases tokens with
      | nil =>
          rw [List.map_cons, List.map_nil, String.intercalate_singleton, scan, first]
          rfl
      | cons next tokens =>
          have space : isBlank ' ' = true := rfl
          have rest := ih others
          rw [List.map_cons] at rest
          rw [List.map_cons, List.map_cons, String.intercalate_cons_cons]
          change (scan (token.text ++ String.singleton ' ' ++ _)).map content = _
          rw [scan_append_blank space, List.map_append, List.map_map, content_shift, rest, scan,
            first]
          rfl

/-- White space separates tokens and does nothing else: a blank parts a text into two whose tokens
do not depend on one another, and a space alone may stand between any two tokens. -/
theorem scan_separates :
    (∀ (before after : String) (separator : Char), isBlank separator = true →
      scan (before ++ String.singleton separator ++ after) =
        scan before ++
          (scan after).map (shift (before ++ String.singleton separator).utf8ByteSize)) ∧
      ∀ text : String,
        (scan (" ".intercalate ((scan text).map (·.text)))).map content =
          (scan text).map content := by
  constructor
  · intro before after separator blank
    exact scan_append_blank blank before after
  · intro text
    apply content_scan_intercalate
    intro token member
    exact scanFrom_alone member 0

theorem scan_separates_points :
    isBlank '\u3000' = true ∧
      scan ("1." ++ String.singleton '\u3000' ++ ".5") =
        [⟨.number, "1.", 0⟩, ⟨.unknown, ".", 5⟩, ⟨.number, "5", 6⟩] := by
  have front : scan "1." = [⟨.number, "1.", 0⟩] := by
    have text : "1.".toList = '1' :: ['.'] ++ [] := rfl
    rw [scan, text, scanFrom_run rfl (List.all_eq_true.mp rfl) (by simp), scanFrom_nil]
    rfl
  have back : scan ".5" = [⟨.unknown, ".", 0⟩, ⟨.number, "5", 1⟩] := by
    have text : ".5".toList = '.' :: [] ++ ('5' :: [] ++ []) := rfl
    rw [scan, text, scanFrom_run rfl (by simp) (fun _ _ => rfl),
      scanFrom_run rfl (by simp) (by simp), scanFrom_nil]
    rfl
  refine ⟨rfl, ?_⟩
  rw [scan_separates.1 "1." ".5" '\u3000' rfl, front, back]
  rfl

end Reckoner.Token
