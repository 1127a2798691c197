/-!
White space: the characters of the Unicode property White_Space. They separate tokens and are
stripped from both ends of an expression's text.
-/

namespace Reckoner.Text

/-- The 25 characters of the property White_Space. -/
def isBlank (c : Char) : Bool :=
  let code := c.toNat
  (9 ≤ code && code ≤ 13) || code == 0x20 || code == 0x85 || code == 0xA0 || code == 0x1680 ||
    (0x2000 ≤ code && code ≤ 0x200A) || code == 0x2028 || code == 0x2029 || code == 0x202F ||
    code == 0x205F || code == 0x3000

def dropBlank (text : List Char) : List Char :=
  text.dropWhile isBlank

def trimList (text : List Char) : List Char :=
  (dropBlank (dropBlank text).reverse).reverse

def trim (text : String) : String :=
  String.ofList (trimList text.toList)

end Reckoner.Text
