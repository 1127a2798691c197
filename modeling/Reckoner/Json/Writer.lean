import Reckoner.Json.Number
import Reckoner.Text.Quoted

/-!
Writing JSON, without any white space or indented by two spaces a level. The writer takes the text
that is to follow, so that every character is written once.
-/

namespace Reckoner.Json

def escapeChar (c : Char) : List Char :=
  if c = '"' then ['\\', '"']
  else if c = '\\' then ['\\', '\\']
  else if c = '\x08' then ['\\', 'b']
  else if c = '\x0c' then ['\\', 'f']
  else if c = '\n' then ['\\', 'n']
  else if c = '\r' then ['\\', 'r']
  else if c = '\t' then ['\\', 't']
  else if c.toNat < 16 then ['\\', 'u', '0', '0', '0'] ++ Text.hexDigits c.toNat
  else if c.toNat < 32 then ['\\', 'u', '0', '0'] ++ Text.hexDigits c.toNat
  else [c]

def escaped (content : String) : List Char :=
  '"' :: content.toList.flatMap escapeChar ++ ['"']

/-- The written form of a text or a key; one that stands for no string is written empty. -/
def escapedText (content : Option String) : List Char :=
  escaped (content.getD "")

def numeralText (numeral : Decimal.Numeral) : List Char :=
  numeral.text layout.plusSign

structure Spacing where
  /-- What stands before an item or a member, and before the closing mark of what has some. -/
  line : Nat → List Char
  /-- What stands behind a colon. -/
  colon : List Char
  line_blank : ∀ level, ∀ c ∈ line level, isSpace c = true
  colon_blank : ∀ c ∈ colon, isSpace c = true

namespace Spacing

def compact : Spacing where
  line _ := []
  colon := []
  line_blank _ := by simp
  colon_blank := by simp

def indented : Spacing where
  line level := '\n' :: List.replicate (2 * level) ' '
  colon := [' ']
  line_blank level := by simp +contextual [isSpace]
  colon_blank := by simp [isSpace]

end Spacing

mutual

def Value.written (spacing : Spacing) (level : Nat) : Value → List Char → List Char
  | .null, rest => "null".toList ++ rest
  | .bool true, rest => "true".toList ++ rest
  | .bool false, rest => "false".toList ++ rest
  | .number numeral, rest => numeralText numeral ++ rest
  | .text content, rest => escapedText content ++ rest
  | .array [], rest => '[' :: ']' :: rest
  | .array items, rest =>
      '[' :: itemsWritten spacing (level + 1) items (spacing.line level ++ ']' :: rest)
  | .object [], rest => '{' :: '}' :: rest
  | .object members, rest =>
      '{' :: membersWritten spacing (level + 1) members (spacing.line level ++ '}' :: rest)

def itemsWritten (spacing : Spacing) (level : Nat) : List Value → List Char → List Char
  | [], rest => rest
  | [item], rest => spacing.line level ++ item.written spacing level rest
  | item :: items, rest =>
      spacing.line level ++
        item.written spacing level (',' :: itemsWritten spacing level items rest)

def membersWritten (spacing : Spacing) (level : Nat) :
    List (Option String × Value) → List Char → List Char
  | [], rest => rest
  | [(key, item)], rest =>
      spacing.line level ++ (escapedText key ++
        ':' :: (spacing.colon ++ item.written spacing level rest))
  | (key, item) :: members, rest =>
      spacing.line level ++ (escapedText key ++
        ':' :: (spacing.colon ++
          item.written spacing level (',' :: membersWritten spacing level members rest)))

end

def Value.toText (value : Value) : String :=
  String.ofList (value.written .compact 0 [])

def Value.toLines (value : Value) : String :=
  String.ofList (value.written .indented 0 [])

end Reckoner.Json
