import Stencil.Text.Basic

/-!
# Decimal numbers

The number that a decimal text writes, as a coefficient and a power of ten, and the float nearest to
it. `Decimal.read?` accepts digits with an optional sign, point and exponent.
-/

namespace Stencil

/-- The number `coefficient * 10 ^ exponent`, with a sign of its own so that zero keeps one. -/
structure Decimal where
  negative : Bool
  coefficient : Nat
  exponent : Int
  deriving DecidableEq, Repr

namespace Decimal

/-- The magnitude rounded to the nearest float. A magnitude of at least `10 ^ 310` is infinite and
one below `10 ^ -330` is zero, whatever its digits. -/
def magnitude (d : Decimal) : Float :=
  let top : Int := (Text.ofNat d.coefficient).length + d.exponent
  if d.coefficient = 0 || top < -330 then 0
  else if 310 < top then 1 / 0
  else if d.exponent < 0 then Float.ofScientific d.coefficient true d.exponent.natAbs
  else Float.ofScientific d.coefficient false d.exponent.natAbs

def toFloat (d : Decimal) : Float := if d.negative then -d.magnitude else d.magnitude

/-- Splits a sign off: whether the text starts with a minus, and what follows the sign. -/
def splitSign : Text → Bool × Text
  | '-' :: rest => (true, rest)
  | '+' :: rest => (false, rest)
  | rest => (false, rest)

def readExponent? (text : Text) : Option Int :=
  let (negative, digits) := splitSign text
  if digits.isEmpty || !digits.all Text.isDigit then none
  else some (if negative then -Text.decimal digits else Text.decimal digits)

/-- Reads a whole text: a sign, digits with a point before, among or behind them, and an exponent;
only the digits have to be there. -/
def read? (text : Text) : Option Decimal :=
  let (negative, unsigned) := splitSign text
  let whole := unsigned.takeWhile Text.isDigit
  let behindWhole := unsigned.dropWhile Text.isDigit
  let (fraction, behind) :=
    match behindWhole with
    | '.' :: rest => (rest.takeWhile Text.isDigit, rest.dropWhile Text.isDigit)
    | rest => ([], rest)
  if whole.isEmpty && fraction.isEmpty then none
  else
    let coefficient := Text.decimal (whole ++ fraction)
    match behind with
    | [] => some ⟨negative, coefficient, -fraction.length⟩
    | mark :: rest =>
      if mark == 'e' || mark == 'E' then
        (readExponent? rest).map fun exponent => ⟨negative, coefficient, exponent - fraction.length⟩
      else none

end Decimal

end Stencil
