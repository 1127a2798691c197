import Reckoner.Decimal.Layout

/-!
JSON values. A number is kept as it is written, because its meaning depends on who asks. A text
whose escapes name half of a surrogate pair is a well-formed text of JSON that stands for no
string: it is kept as `none`, and so is such a key.
-/

namespace Reckoner.Json

inductive Value where
  | null
  | bool (value : Bool)
  | number (numeral : Decimal.Numeral)
  | text (content : Option String)
  | array (items : List Value)
  | object (members : List (Option String × Value))

def isSpace (c : Char) : Bool :=
  c == ' ' || c == '\t' || c == '\n' || c == '\r'

def Value.ofString (content : String) : Value :=
  .text (some content)

def Value.record (members : List (String × Value)) : Value :=
  .object (members.map fun member => (some member.1, member.2))

mutual

def Value.depth : Value → Nat
  | .array items => itemsDepth items + 1
  | .object members => membersDepth members + 1
  | _ => 0

def itemsDepth : List Value → Nat
  | [] => 0
  | item :: rest => max item.depth (itemsDepth rest)

def membersDepth : List (Option String × Value) → Nat
  | [] => 0
  | (_, item) :: rest => max item.depth (membersDepth rest)

end

mutual

def Value.allSound (test : Decimal.Numeral → Bool) : Value → Bool
  | .number numeral => test numeral
  | .text content => content.isSome
  | .array items => itemsSound test items
  | .object members => membersSound test members
  | _ => true

def itemsSound (test : Decimal.Numeral → Bool) : List Value → Bool
  | [] => true
  | item :: rest => item.allSound test && itemsSound test rest

def membersSound (test : Decimal.Numeral → Bool) : List (Option String × Value) → Bool
  | [] => true
  | (key, item) :: rest => key.isSome && item.allSound test && membersSound test rest

end

/-- The values of the named fields of a record, in the order of the names. An object may leave
fields out and hold others, but it gives no field twice and every key is a string. An array gives
exactly the fields in their order. -/
def Value.fields? (names : List String) : Value → Option (List (Option Value))
  | .object members =>
      let once := names.all fun name =>
        (members.filter fun member => member.1 == some name).length ≤ 1
      if members.all (fun member => member.1.isSome) && once then
        some (names.map fun name => (members.find? fun member => member.1 == some name).map (·.2))
      else none
  | .array items => if items.length = names.length then some (items.map some) else none
  | _ => none

def Value.string? : Value → Option String
  | .text content => content
  | _ => none

def Value.bool? : Value → Option Bool
  | .bool value => some value
  | _ => none

/-- The constant that a value names: by a string, or by an object with that one key, whose value is
null. -/
def Value.name? : Value → Option String
  | .text content => content
  | .object [(key, .null)] => key
  | _ => none

end Reckoner.Json
