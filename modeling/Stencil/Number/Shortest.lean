import Stencil.Number.Binary

/-!
# Shortest decimals

Among the decimals that read back as a given float, `Shortest.ofBinary` takes one with the fewest
digits, and of those the nearest. A decimal reads back when it lies in the interval of reals that
round to the float; if a grid of decimals meets that interval, one of the two grid points next to
the value lies in it.

`Shortest.text` writes the digits positionally, with a point and at least one digit on both sides
of it.
-/

namespace Stencil

/-- The number `digits * 10 ^ exponent`. -/
structure Shortest where
  digits : Nat
  exponent : Int
  deriving DecidableEq, Repr

namespace Shortest

/-- The reals that round to a float, as fractions of one denominator. -/
structure Interval where
  value : Nat
  low : Nat
  high : Nat
  denominator : Nat
  /-- The ends round to the float too. -/
  closed : Bool
  deriving DecidableEq, Repr

/-- The interval of a float that is not zero. Below a power of two floats are twice as dense. -/
def Interval.ofBinary (b : Binary) : Interval :=
  let below := if b.mantissa = Number.twoTo 52 ∧ -1074 < b.exponent then 1 else 2
  let scale (n : Nat) := n * Number.twoTo (b.exponent - 2).toNat
  ⟨scale (4 * b.mantissa), scale (4 * b.mantissa - below), scale (4 * b.mantissa + 2),
    Number.twoTo (2 - b.exponent).toNat, b.mantissa % 2 == 0⟩

/-- A decimal reads back. -/
def Interval.holds (i : Interval) (s : Shortest) : Bool :=
  let n := s.digits * Number.tenTo s.exponent.toNat * i.denominator
  let scale := Number.tenTo (-s.exponent).toNat
  if i.closed then i.low * scale ≤ n && n ≤ i.high * scale
  else i.low * scale < n && n < i.high * scale

/-- The decimals with a given exponent next to the value, from below and from above. -/
def Interval.neighbours (i : Interval) (exponent : Int) : Shortest × Shortest :=
  let digits :=
    i.value * Number.tenTo (-exponent).toNat / (i.denominator * Number.tenTo exponent.toNat)
  (⟨digits, exponent⟩, ⟨digits + 1, exponent⟩)

def Interval.nearerBelow (i : Interval) (exponent : Int) : Bool :=
  let unit := i.denominator * Number.tenTo exponent.toNat
  2 * (i.value * Number.tenTo (-exponent).toNat % unit) < unit

/-- The decimal with a given exponent that reads back, if there is one; of two the nearer. -/
def Interval.onGrid? (i : Interval) (exponent : Int) : Option Shortest :=
  let (below, above) := i.neighbours exponent
  match i.holds below, i.holds above with
  | true, true => some (if i.nearerBelow exponent then below else above)
  | true, false => some below
  | false, true => some above
  | false, false => none

/-- The decimal on the first grid with a hit, of the grids from `exponent` on down. -/
def Interval.search (i : Interval) (exponent : Int) : Nat → Shortest
  | 0 => (i.neighbours exponent).1
  | grids + 1 =>
    match i.onGrid? exponent with
    | some s => s
    | none => i.search (exponent - 1) grids

/-- The number of decimal digits of the whole part of a fraction, or minus the number of zeros
behind the point. -/
def Interval.top (i : Interval) : Int :=
  if i.denominator ≤ i.value then (Text.ofNat (i.value / i.denominator)).length
  else 1 - (Text.ofNat (i.denominator / i.value)).length

/-- A decimal with the fewest digits that reads back as a float that is not zero. -/
def ofBinary (b : Binary) : Shortest :=
  let i := Interval.ofBinary b
  i.search i.top 20

/-- The digits with a point at their decimal place, and at least one digit before and behind it. -/
def positional (s : Shortest) : Text :=
  let digits := Text.ofNat s.digits
  if 0 ≤ s.exponent then digits ++ List.replicate s.exponent.toNat '0' ++ ".0".toList
  else
    let places := s.exponent.natAbs
    let padded := List.replicate (places + 1 - digits.length) '0' ++ digits
    let behind := padded.drop (padded.length - places)
    padded.take (padded.length - places) ++ ['.'] ++ behind

end Shortest

namespace Number

/-- A float in decimal digits: the fewest that read back, never with an exponent. -/
def text (x : Float) : Text :=
  if x.isNaN then "NaN".toList
  else
    let magnitude :=
      if x.isInf then "inf".toList
      else if x == 0 then "0.0".toList
      else (Shortest.ofBinary (Binary.ofFloat x)).positional
    if isNegative x then '-' :: magnitude else magnitude

end Number

end Stencil
