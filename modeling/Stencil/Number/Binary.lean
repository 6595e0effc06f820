import Stencil.Number.Power
import Stencil.Text.Basic

/-!
# Floats as exact numbers

A finite float is a whole number times a power of two. `Binary.ofFloat` takes it apart, so that
questions about its exact value (what is its whole part, what remains of a division, how does it
compare with a whole number) are answered in whole numbers.
-/

namespace Stencil

/-- The number `mantissa * 2 ^ exponent`. -/
structure Binary where
  mantissa : Nat
  exponent : Int
  deriving DecidableEq, Repr

namespace Binary

/-- The magnitude of a finite float. -/
def ofFloat (x : Float) : Binary :=
  let bits := x.toBits.toNat
  let fraction : Nat := bits % Number.twoTo 52
  let field : Nat := bits / Number.twoTo 52 % Number.twoTo 11
  if field = 0 then ⟨fraction, -1074⟩ else ⟨fraction + Number.twoTo 52, field - 1075⟩

def wholePart (b : Binary) : Nat :=
  if b.exponent < 0 then b.mantissa / Number.twoTo (-b.exponent).toNat
  else b.mantissa * Number.twoTo b.exponent.toNat

def isWhole (b : Binary) : Bool :=
  0 ≤ b.exponent || b.mantissa % Number.twoTo (-b.exponent).toNat == 0

/-- What remains of `a` when multiples of `b` are taken away, for a `b` that is not zero. -/
def remainder (a b : Binary) : Binary :=
  let exponent := min a.exponent b.exponent
  ⟨a.mantissa * Number.twoTo (a.exponent - exponent).toNat %
    (b.mantissa * Number.twoTo (b.exponent - exponent).toNat), exponent⟩

/-- The nearest float; the ones that arise here are exact. -/
def toFloat (b : Binary) : Float := (Float.ofNat b.mantissa).scaleB b.exponent

end Binary

namespace Number

def isNegative (x : Float) : Bool := x.toBits.toNat / twoTo 63 == 1

/-- The whole part of a finite float, with its sign. -/
def truncate (x : Float) : Int :=
  if isNegative x then -(Binary.ofFloat x).wholePart else (Binary.ofFloat x).wholePart

/-- The remainder of a division with the sign of `x`. -/
def remainder (x y : Float) : Float :=
  if x.isNaN || y.isNaN || x.isInf || y == 0 then 0 / 0
  else if y.isInf then x
  else
    let rest := ((Binary.ofFloat x).remainder (Binary.ofFloat y)).toFloat
    if isNegative x then -rest else rest

def truncateFloat (x : Float) : Float := if isNegative x then x.ceil else x.floor

/-- The quotient for which the remainder is not negative. -/
def euclideanQuotient (x y : Float) : Float :=
  let quotient := truncateFloat (x / y)
  if remainder x y < 0 then (if 0 < y then quotient - 1 else quotient + 1) else quotient

/-- The order of all floats: by sign, then by magnitude, with zeros of different sign and values
that are no numbers kept apart. -/
def totalOrder (x y : Float) : Ordering :=
  let key (x : Float) : Int :=
    let magnitude : Int := x.toBits.toNat % twoTo 63
    if isNegative x then -magnitude - 1 else magnitude
  compare (key x) (key y)

end Number

end Stencil
