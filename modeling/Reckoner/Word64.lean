/-!
Words of 64 bits: the whole numbers that fit one, with a sign and without.
-/

namespace Reckoner.Word64

def limit : Nat := 18446744073709551616

def fits (value : Nat) : Bool :=
  value < limit

def least : Int := -9223372036854775808

def greatest : Int := 9223372036854775807

def fitsSigned (value : Int) : Bool :=
  least ≤ value && value ≤ greatest

end Reckoner.Word64
