import Reckoner.Text.Unseen

/-!
Quoted text: a text between double quotes in which every character can be recognised. A quote and
a backslash are marked by a backslash, four control characters have names of their own, and any
other unseen character stands as its code in braces.
-/

namespace Reckoner.Text

def hexDigits (value : Nat) : List Char :=
  Nat.toDigits 16 value

def quoteChar (c : Char) : List Char :=
  if c = '"' then ['\\', '"']
  else if c = '\\' then ['\\', '\\']
  else if c = '\n' then ['\\', 'n']
  else if c = '\r' then ['\\', 'r']
  else if c = '\t' then ['\\', 't']
  else if c = '\x00' then ['\\', '0']
  else if isUnseen c then ['\\', 'u', '{'] ++ hexDigits c.toNat ++ ['}']
  else [c]

def quotedList (text : List Char) : List Char :=
  '"' :: text.flatMap quoteChar ++ ['"']

def quoted (text : String) : String :=
  String.ofList (quotedList text.toList)

end Reckoner.Text
