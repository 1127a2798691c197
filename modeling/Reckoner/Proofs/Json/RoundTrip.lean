import Reckoner.Proofs.Json.Numeral
import Reckoner.Proofs.Json.Text

/-!
Theory of the written form of values: a value whose numerals are proper and whose texts and keys are
strings is read back from its text, without white space or over lines. The bound on the steps of a
reader is twice the length of what it has before it, and one more for the items and members of a
value.
-/

namespace Reckoner.Json

open Reckoner.Decimal

abbrev Value.isWritable (value : Value) : Bool :=
  value.allSound isProper

theorem skipSpace_cons {c : Char} (solid : isSpace c = false) (text : List Char) :
    skipSpace (c :: text) = c :: text := by
  simp [skipSpace, solid]

theorem skipSpace_append {blank : List Char} (spaces : ∀ c ∈ blank, isSpace c = true)
    (text : List Char) : skipSpace (blank ++ text) = skipSpace text :=
  List.dropWhile_append_of_pos spaces

theorem readValue?_append {blank : List Char} (spaces : ∀ c ∈ blank, isSpace c = true)
    (fuel : Nat) (text : List Char) : readValue? fuel (blank ++ text) = readValue? fuel text := by
  cases fuel with
  | zero => rfl
  | succ fuel => rw [readValue?, readValue?, skipSpace_append spaces]

theorem numeral_start {c : Char} (start : c = '-' ∨ isDecimalDigit c = true) :
    isSpace c = false ∧ c ∉ ['n', 't', 'f', '"', '[', ']', '{'] := by
  have spaces : [' ', '\t', '\n', '\r'].all fun c => c != '-' && !isDecimalDigit c := by decide
  have others : ['n', 't', 'f', '"', '[', ']', '{'].all fun c => c != '-' && !isDecimalDigit c := by
    decide
  have absent {marks : List Char} (none : marks.all fun c => c != '-' && !isDecimalDigit c) :
      c ∉ marks := by
    intro member
    have plain := List.all_eq_true.mp none c member
    rcases start with rfl | digit <;> simp_all
  have solid := absent spaces
  simp only [List.mem_cons, List.not_mem_nil, or_false, not_or] at solid
  exact ⟨by simp [isSpace, solid], absent others⟩

section
variable (spacing : Spacing) (level : Nat) (rest : List Char)

theorem written_number (numeral : Numeral) :
    (Value.number numeral).written spacing level rest = numeralText numeral ++ rest :=
  rfl

theorem written_text (content : String) :
    (Value.text (some content)).written spacing level rest = escaped content ++ rest :=
  rfl

theorem written_array (item : Value) (items : List Value) :
    (Value.array (item :: items)).written spacing level rest =
      '[' :: itemsWritten spacing (level + 1) (item :: items)
        (spacing.line level ++ ']' :: rest) :=
  rfl

theorem written_object (member : Option String × Value) (members : List (Option String × Value)) :
    (Value.object (member :: members)).written spacing level rest =
      '{' :: membersWritten spacing (level + 1) (member :: members)
        (spacing.line level ++ '}' :: rest) :=
  rfl

theorem itemsWritten_singleton (item : Value) :
    itemsWritten spacing level [item] rest =
      spacing.line level ++ item.written spacing level rest :=
  rfl

theorem itemsWritten_cons_cons (item next : Value) (items : List Value) :
    itemsWritten spacing level (item :: next :: items) rest =
      spacing.line level ++ item.written spacing level
        (',' :: itemsWritten spacing level (next :: items) rest) :=
  rfl

theorem membersWritten_singleton (key : String) (item : Value) :
    membersWritten spacing level [(some key, item)] rest =
      spacing.line level ++ (escaped key ++
        ':' :: (spacing.colon ++ item.written spacing level rest)) :=
  rfl

theorem membersWritten_cons_cons (key : String) (item : Value) (next : Option String × Value)
    (members : List (Option String × Value)) :
    membersWritten spacing level ((some key, item) :: next :: members) rest =
      spacing.line level ++ (escaped key ++
        ':' :: (spacing.colon ++ item.written spacing level
          (',' :: membersWritten spacing level (next :: members) rest))) :=
  rfl

end

variable (spacing : Spacing)

theorem written_head {value : Value} (writable : value.isWritable) (level : Nat)
    (rest : List Char) :
    ∃ c text, value.written spacing level rest = c :: text ∧ isSpace c = false ∧ c ≠ ']' := by
  cases value with
  | null => exact ⟨'n', _, rfl, rfl, by decide⟩
  | bool value =>
      cases value with
      | false => exact ⟨'f', _, rfl, rfl, by decide⟩
      | true => exact ⟨'t', _, rfl, rfl, by decide⟩
  | number numeral =>
      obtain ⟨c, text, split, start⟩ := numeralText_head writable
      obtain ⟨solid, others⟩ := numeral_start start
      refine ⟨c, text ++ rest, by rw [written_number, split, List.cons_append], solid, ?_⟩
      rintro rfl
      exact others (by decide)
  | text content => exact ⟨'"', _, rfl, rfl, by decide⟩
  | array items => cases items <;> exact ⟨'[', _, rfl, rfl, by decide⟩
  | object members => cases members <;> exact ⟨'{', _, rfl, rfl, by decide⟩

mutual

theorem length_lt_written : ∀ (value : Value), value.isWritable → ∀ (level : Nat)
    (rest : List Char), rest.length < (value.written spacing level rest).length
  | .null, _, _, rest => Nat.lt_add_of_pos_right (k := 4) (by decide)
  | .bool true, _, _, rest => Nat.lt_add_of_pos_right (k := 4) (by decide)
  | .bool false, _, _, rest => Nat.lt_add_of_pos_right (k := 5) (by decide)
  | .number numeral, writable, level, rest => by
      obtain ⟨c, text, split, _⟩ := numeralText_head writable
      simp only [written_number, split, List.length_append, List.length_cons]
      omega
  | .text (some content), _, level, rest => by
      simp only [written_text, escaped, List.length_append, List.length_cons]
      omega
  | .array [], _, _, rest => Nat.lt_add_of_pos_right (k := 2) (by decide)
  | .array (item :: items), writable, level, rest => by
      have longer := length_le_itemsWritten (item :: items) writable (level + 1)
        (spacing.line level ++ ']' :: rest)
      simp only [written_array, List.length_cons, List.length_append] at longer ⊢
      omega
  | .object [], _, _, rest => Nat.lt_add_of_pos_right (k := 2) (by decide)
  | .object (member :: members), writable, level, rest => by
      have longer := length_le_membersWritten (member :: members) writable (level + 1)
        (spacing.line level ++ '}' :: rest)
      simp only [written_object, List.length_cons, List.length_append] at longer ⊢
      omega

theorem length_le_itemsWritten : ∀ (items : List Value), itemsSound isProper items →
    ∀ (level : Nat) (rest : List Char),
      rest.length ≤ (itemsWritten spacing level items rest).length
  | [], _, _, rest => Nat.le_refl _
  | [item], writable, level, rest => by
      simp only [itemsSound, Bool.and_true] at writable
      have longer := length_lt_written item writable level rest
      rw [itemsWritten_singleton, List.length_append]
      omega
  | item :: next :: items, writable, level, rest => by
      rw [itemsSound, Bool.and_eq_true] at writable
      have later := length_le_itemsWritten (next :: items) writable.2 level rest
      have longer := length_lt_written item writable.1 level
        (',' :: itemsWritten spacing level (next :: items) rest)
      simp only [itemsWritten_cons_cons, List.length_cons, List.length_append] at longer ⊢
      omega

theorem length_le_membersWritten : ∀ (members : List (Option String × Value)),
    membersSound isProper members → ∀ (level : Nat) (rest : List Char),
      rest.length ≤ (membersWritten spacing level members rest).length
  | [], _, _, rest => Nat.le_refl _
  | [(some key, item)], writable, level, rest => by
      simp only [membersSound, Bool.and_true, Bool.and_eq_true] at writable
      have longer := length_lt_written item writable.2 level rest
      simp only [membersWritten_singleton, List.length_cons, List.length_append]
      omega
  | (none, item) :: members, writable, _, _ => nomatch writable
  | (some key, item) :: next :: members, writable, level, rest => by
      rw [membersSound, Bool.and_eq_true, Bool.and_eq_true] at writable
      have later := length_le_membersWritten (next :: members) writable.2 level rest
      have longer := length_lt_written item writable.1.2 level
        (',' :: membersWritten spacing level (next :: members) rest)
      simp only [membersWritten_cons_cons, List.length_cons, List.length_append] at longer ⊢
      omega

end

theorem readValue?_number {numeral : Numeral} (proper : isProper numeral = true)
    {rest : List Char} (ends : EndsValue rest) (fuel : Nat) :
    readValue? (fuel + 1) (numeralText numeral ++ rest) = some (.number numeral, rest) := by
  obtain ⟨c, text, split, start⟩ := numeralText_head proper
  obtain ⟨solid, others⟩ := numeral_start start
  have read : readNumeral? (numeralText numeral ++ rest) = some (numeral, rest) :=
    readNumeral?_text (Or.inr rfl) proper ends
  rw [split, List.cons_append] at read ⊢
  simp only [List.mem_cons, List.not_mem_nil, or_false, not_or] at others
  rw [readValue?, skipSpace_cons solid]
  split
  case h_7 => exact congrArg (Option.map _) read
  all_goals
    rename_i same
    simp [(List.cons.inj same).1] at others

theorem readValue?_text (content : String) (rest : List Char) (fuel : Nat) :
    readValue? (fuel + 1) (escaped content ++ rest) = some (.text (some content), rest) := by
  obtain ⟨text, split, read⟩ := readText?_escaped content rest
  rw [split, readValue?, skipSpace_cons (c := '"') rfl]
  exact congrArg (Option.map _) read

theorem itemsWritten_head (level : Nat) {item : Value} {items : List Value}
    (writable : itemsSound isProper (item :: items)) (rest : List Char) :
    ∃ c text, skipSpace (itemsWritten spacing level (item :: items) rest) = c :: text ∧
      c ≠ ']' := by
  rw [itemsSound, Bool.and_eq_true] at writable
  obtain ⟨behind, split⟩ : ∃ behind, itemsWritten spacing level (item :: items) rest =
      spacing.line level ++ item.written spacing level behind := by
    cases items <;> exact ⟨_, rfl⟩
  obtain ⟨c, text, start, solid, other⟩ := written_head spacing writable.1 level behind
  refine ⟨c, text, ?_, other⟩
  rw [split, skipSpace_append (spacing.line_blank level), start, skipSpace_cons solid]

theorem membersWritten_head (level : Nat) (key : String) (item : Value)
    (members : List (Option String × Value)) (rest : List Char) :
    ∃ text, skipSpace (membersWritten spacing level ((some key, item) :: members) rest) =
      '"' :: text := by
  obtain ⟨text, split⟩ : ∃ text, membersWritten spacing level ((some key, item) :: members) rest =
      spacing.line level ++ '"' :: text := by
    cases members <;> exact ⟨_, rfl⟩
  exact ⟨text, by rw [split, skipSpace_append (spacing.line_blank level), skipSpace_cons rfl]⟩

theorem readValue?_array {level fuel : Nat} {item : Value} {items : List Value} {rest : List Char}
    (writable : itemsSound isProper (item :: items))
    (read : readItems? fuel (itemsWritten spacing (level + 1) (item :: items)
      (spacing.line level ++ ']' :: rest)) = some (item :: items, rest)) :
    readValue? (fuel + 1) ((Value.array (item :: items)).written spacing level rest) =
      some (.array (item :: items), rest) := by
  obtain ⟨c, text, split, other⟩ := itemsWritten_head spacing (level + 1) writable
    (spacing.line level ++ ']' :: rest)
  rw [written_array, readValue?, skipSpace_cons (c := '[') rfl]
  simp only [split, read]
  split
  · rename_i same
    exact absurd (List.cons.inj same).1 other
  · rfl

theorem readValue?_object {level fuel : Nat} {key : String} {item : Value}
    {members : List (Option String × Value)} {rest : List Char}
    (read : readMembers? fuel (membersWritten spacing (level + 1) ((some key, item) :: members)
      (spacing.line level ++ '}' :: rest)) = some ((some key, item) :: members, rest)) :
    readValue? (fuel + 1)
        ((Value.object ((some key, item) :: members)).written spacing level rest) =
      some (.object ((some key, item) :: members), rest) := by
  obtain ⟨text, split⟩ := membersWritten_head spacing (level + 1) key item members
    (spacing.line level ++ '}' :: rest)
  rw [written_object, readValue?, skipSpace_cons (c := '{') rfl]
  simp only [split, read]
  rfl

section
variable {level fuel : Nat} (key : String) {item : Value} {behind rest : List Char}
  (read : readValue? fuel (item.written spacing level behind) = some (item, behind))
include read

theorem readMembers?_last (closed : skipSpace behind = '}' :: rest) :
    readMembers? (fuel + 1) (spacing.line level ++ (escaped key ++
      ':' :: (spacing.colon ++ item.written spacing level behind))) =
        some ([(some key, item)], rest) := by
  obtain ⟨inner, split, readKey⟩ := readText?_escaped key
    (':' :: (spacing.colon ++ item.written spacing level behind))
  rw [split, readMembers?, skipSpace_append (spacing.line_blank level)]
  simp only [skipSpace_cons (c := '"') rfl, readKey, Option.bind_some,
    skipSpace_cons (c := ':') rfl, readValue?_append spacing.colon_blank, read, closed]

theorem readMembers?_more {text : List Char} {members : List (Option String × Value)}
    (parted : skipSpace behind = ',' :: text)
    (later : readMembers? fuel text = some (members, rest)) :
    readMembers? (fuel + 1) (spacing.line level ++ (escaped key ++
      ':' :: (spacing.colon ++ item.written spacing level behind))) =
        some ((some key, item) :: members, rest) := by
  obtain ⟨inner, split, readKey⟩ := readText?_escaped key
    (':' :: (spacing.colon ++ item.written spacing level behind))
  rw [split, readMembers?, skipSpace_append (spacing.line_blank level)]
  simp only [skipSpace_cons (c := '"') rfl, readKey, Option.bind_some,
    skipSpace_cons (c := ':') rfl, readValue?_append spacing.colon_blank, read, parted, later,
    Option.map_some]

end

mutual

theorem readValue?_written : ∀ (value : Value), value.isWritable → ∀ (level fuel : Nat)
    (rest : List Char), EndsValue rest → 2 * (value.written spacing level rest).length ≤ fuel →
      readValue? fuel (value.written spacing level rest) = some (value, rest)
  | value, writable, level, 0, rest, _, enough => by
      have longer := length_lt_written spacing value writable level rest
      omega
  | .null, _, _, fuel + 1, rest, _, _ => rfl
  | .bool true, _, _, fuel + 1, rest, _, _ => rfl
  | .bool false, _, _, fuel + 1, rest, _, _ => rfl
  | .number numeral, proper, _, fuel + 1, rest, ends, _ => readValue?_number proper ends fuel
  | .text (some content), _, _, fuel + 1, rest, _, _ => readValue?_text content rest fuel
  | .array [], _, _, fuel + 1, rest, _, _ => rfl
  | .array (item :: items), writable, level, fuel + 1, rest, _, enough => by
      rw [written_array, List.length_cons] at enough
      have read := readItems?_itemsWritten item items writable (level + 1) fuel
        (spacing.line_blank level) rest (by omega)
      exact readValue?_array spacing writable read
  | .object [], _, _, fuel + 1, rest, _, _ => rfl
  | .object ((none, item) :: members), writable, _, _, _, _, _ => nomatch writable
  | .object ((some key, item) :: members), writable, level, fuel + 1, rest, _, enough => by
      rw [written_object, List.length_cons] at enough
      have read := readMembers?_membersWritten key item members writable (level + 1) fuel
        (spacing.line_blank level) rest (by omega)
      exact readValue?_object spacing read

theorem readItems?_itemsWritten : ∀ (item : Value) (items : List Value),
    itemsSound isProper (item :: items) → ∀ (level fuel : Nat) {blank : List Char},
      (∀ c ∈ blank, isSpace c = true) → ∀ rest : List Char,
        2 * (itemsWritten spacing level (item :: items) (blank ++ ']' :: rest)).length + 1 ≤ fuel →
          readItems? fuel (itemsWritten spacing level (item :: items) (blank ++ ']' :: rest)) =
            some (item :: items, rest)
  | item, [], writable, level, fuel + 1, blank, spaces, rest, enough => by
      simp only [itemsSound, Bool.and_true] at writable
      rw [itemsWritten_singleton, List.length_append] at enough
      have read := readValue?_written item writable level fuel (blank ++ ']' :: rest)
        ((endsValue_cons (c := ']') rfl rest).of_blank spaces) (by omega)
      simp [itemsWritten_singleton, readItems?, readValue?_append (spacing.line_blank level), read,
        skipSpace_append spaces, skipSpace_cons (c := ']') rfl]
  | item, next :: items, writable, level, fuel + 1, blank, spaces, rest, enough => by
      rw [itemsSound, Bool.and_eq_true] at writable
      rw [itemsWritten_cons_cons, List.length_append] at enough
      have longer := length_lt_written spacing item writable.1 level
        (',' :: itemsWritten spacing level (next :: items) (blank ++ ']' :: rest))
      rw [List.length_cons] at longer
      have read := readValue?_written item writable.1 level fuel
        (',' :: itemsWritten spacing level (next :: items) (blank ++ ']' :: rest))
        (endsValue_cons (c := ',') rfl _) (by omega)
      have later := readItems?_itemsWritten next items writable.2 level fuel spaces rest (by omega)
      simp [itemsWritten_cons_cons, readItems?, readValue?_append (spacing.line_blank level), read,
        skipSpace_cons (c := ',') rfl, later]

theorem readMembers?_membersWritten : ∀ (key : String) (item : Value)
    (members : List (Option String × Value)), membersSound isProper ((some key, item) :: members) →
      ∀ (level fuel : Nat) {blank : List Char}, (∀ c ∈ blank, isSpace c = true) →
        ∀ rest : List Char,
          2 * (membersWritten spacing level ((some key, item) :: members)
            (blank ++ '}' :: rest)).length + 1 ≤ fuel →
              readMembers? fuel (membersWritten spacing level ((some key, item) :: members)
                (blank ++ '}' :: rest)) = some ((some key, item) :: members, rest)
  | key, item, [], writable, level, fuel + 1, blank, spaces, rest, enough => by
      simp only [membersSound, Option.isSome_some, Bool.true_and, Bool.and_true] at writable
      simp only [membersWritten_singleton, List.length_append, List.length_cons] at enough
      have read := readValue?_written item writable level fuel (blank ++ '}' :: rest)
        ((endsValue_cons (c := '}') rfl rest).of_blank spaces) (by omega)
      rw [membersWritten_singleton]
      exact readMembers?_last spacing key read (by rw [skipSpace_append spaces, skipSpace_cons rfl])
  | key, item, (none, _) :: members, writable, _, _, _, _, _, _ => by
      simp [membersSound] at writable
  | key, item, (some other, value) :: members, writable, level, fuel + 1, blank, spaces, rest,
      enough => by
      rw [membersSound, Bool.and_eq_true, Bool.and_eq_true] at writable
      rw [membersWritten_cons_cons] at enough
      simp only [List.length_append, List.length_cons] at enough
      have longer := length_lt_written spacing item writable.1.2 level
        (',' :: membersWritten spacing level ((some other, value) :: members)
          (blank ++ '}' :: rest))
      rw [List.length_cons] at longer
      have read := readValue?_written item writable.1.2 level fuel
        (',' :: membersWritten spacing level ((some other, value) :: members)
          (blank ++ '}' :: rest))
        (endsValue_cons (c := ',') rfl _) (by omega)
      have later := readMembers?_membersWritten other value members writable.2 level fuel spaces
        rest (by omega)
      rw [membersWritten_cons_cons]
      exact readMembers?_more spacing key read (skipSpace_cons rfl _) later

end

theorem read?_written {value : Value} (writable : value.isWritable) :
    read? (String.ofList (value.written spacing 0 [])) = some value := by
  have read := readValue?_written spacing value writable 0
    (2 * (value.written spacing 0 []).length + 1) [] endsValue_nil (Nat.le_succ _)
  simp [read?, read, skipSpace]

theorem read?_toText {value : Value} (writable : value.isWritable) :
    read? value.toText = some value :=
  read?_written .compact writable

/-- A value is read back from the text that is set out over lines. -/
theorem read?_toLines {value : Value} (writable : value.isWritable) :
    read? value.toLines = some value :=
  read?_written .indented writable

end Reckoner.Json
