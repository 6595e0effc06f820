/-!
# Powers of two and ten

The scales of binary and decimal numbers, and the whole numbers that a fixed number of bits hold.
-/

namespace Stencil.Number

def twoTo (exponent : Nat) : Nat := Nat.pow 2 exponent

def tenTo (exponent : Nat) : Nat := Nat.pow 10 exponent

/-- A whole number that so many bits hold when one of them is for the sign. -/
def fitsSigned (bits : Nat) (n : Int) : Bool :=
  -(twoTo (bits - 1) : Int) ≤ n ∧ n < twoTo (bits - 1)

def fitsUnsigned (bits : Nat) (n : Int) : Bool := 0 ≤ n ∧ n < twoTo bits

end Stencil.Number
