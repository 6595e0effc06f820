import Stencil.Data.Datum
import Stencil.Number.Binary

/-!
# Reading JSON

`Json.parse` reads one JSON value with nothing but blanks around it, and answers nothing when the
text is not one. Of the members of an object with one name the last counts, lists and objects nest
at most 127 deep, and an integer that fits neither 64-bit kind is read as a float, as is `-0`.

The digits of a number form a significand for as long as it fits 64 bits; the remaining ones count
as places. The float is the significand scaled by one exact power of ten, which is not always the
nearest one.
-/

namespace Stencil.Json

def isBlank (c : Char) : Bool := c == ' ' || c == '\n' || c == '\t' || c == '\r'

def skipBlanks (text : Text) : Text := text.dropWhile isBlank

/-! ## Numbers -/

def maxSignificand : Nat := Number.twoTo 64 - 1

/-- Adds digits to a significand until one does not fit; also answers the digits left over. -/
def addDigits (significand : Nat) : Text → Nat × Text
  | [] => (significand, [])
  | c :: rest =>
    let larger := 10 * significand + Text.digitValue c
    if larger ≤ maxSignificand then addDigits larger rest else (significand, c :: rest)

/-- Scales a float by a power of ten, in steps that have an exact float; nothing when the result is
not finite. -/
def scale (x : Float) (exponent : Int) : Nat → Option Float
  | 0 => some x
  | steps + 1 =>
    if exponent.natAbs ≤ 308 then
      let power := Float.ofScientific 1 false exponent.natAbs
      if exponent < 0 then some (x / power)
      else if (x * power).isInf then none else some (x * power)
    else if x == 0 then some x
    else if 0 ≤ exponent then none
    else scale (x / 1e308) (exponent + 308) steps

/-- The float of a significand and a power of ten. Three steps of `scale` bring every significand to
zero. -/
def toFloat? (negative : Bool) (significand : Nat) (exponent : Int) : Option Datum :=
  (scale (Float.ofNat significand) exponent 4).map fun x => .float (if negative then -x else x)

/-- The digits of an exponent and what follows them. -/
def readExponent? (text : Text) : Option (Int × Text) :=
  let (negative, rest) :=
    match text with
    | '-' :: rest => (true, rest)
    | '+' :: rest => (false, rest)
    | rest => (false, rest)
  let digits := rest.takeWhile Text.isDigit
  if digits.isEmpty then none
  else
    let size : Int := Text.decimal digits
    some (if negative then -size else size, rest.dropWhile Text.isDigit)

/-- Reads what may follow the digits of a significand: an exponent, or nothing. -/
def readScaled? (negative : Bool) (significand : Nat) (exponent : Int) (text : Text) :
    Option (Datum × Text) :=
  match text with
  | 'e' :: rest | 'E' :: rest => do
    let (more, rest) ← readExponent? rest
    let value ← toFloat? negative significand (exponent + more)
    return (value, rest)
  | rest => (toFloat? negative significand exponent).map fun value => (value, rest)

def integer (negative : Bool) (significand : Nat) : Datum :=
  if !negative then .int significand
  else if 0 < significand ∧ significand ≤ Number.twoTo 63 then .int (-significand)
  else .float (-Float.ofNat significand)

/-- Reads a number behind its sign. -/
def readNumber? (negative : Bool) (text : Text) : Option (Datum × Text) :=
  let whole := text.takeWhile Text.isDigit
  let behind := text.dropWhile Text.isDigit
  if whole.isEmpty || (whole.head? == some '0' && 1 < whole.length) then none
  else
    let (significand, left) := addDigits 0 whole
    match behind with
    | '.' :: rest =>
      let fraction := rest.takeWhile Text.isDigit
      if fraction.isEmpty then none
      else
        let (significand, dropped) := addDigits significand fraction
        readScaled? negative significand (left.length - (fraction.length - dropped.length))
          (rest.dropWhile Text.isDigit)
    | 'e' :: _ | 'E' :: _ => readScaled? negative significand left.length behind
    | _ =>
      if left.isEmpty then some (integer negative significand, behind)
      else (toFloat? negative significand left.length).map fun value => (value, behind)

/-! ## Strings -/

def hexValue? (c : Char) : Option Nat :=
  if Text.isDigit c then some (Text.digitValue c)
  else if 'a' ≤ c && c ≤ 'f' then some (c.toNat - 'a'.toNat + 10)
  else if 'A' ≤ c && c ≤ 'F' then some (c.toNat - 'A'.toNat + 10)
  else none

def hexUnit? (a b c d : Char) : Option Nat := do
  let a ← hexValue? a
  let b ← hexValue? b
  let c ← hexValue? c
  let d ← hexValue? d
  return ((a * 16 + b) * 16 + c) * 16 + d

/-- The character that a letter after a backslash stands for. -/
def escaped? : Char → Option Char
  | '"' => some '"'
  | '\\' => some '\\'
  | '/' => some '/'
  | 'b' => some '\x08'
  | 'f' => some '\x0c'
  | 'n' => some '\n'
  | 'r' => some '\r'
  | 't' => some '\t'
  | _ => none

/-- The first half of a character that is written as two units. -/
def isHighHalf (unit : Nat) : Bool := 0xd800 ≤ unit && unit ≤ 0xdbff

def isLowHalf (unit : Nat) : Bool := 0xdc00 ≤ unit && unit ≤ 0xdfff

def readString? : Text → Option (Text × Text)
  | [] => none
  | '"' :: rest => some ([], rest)
  | '\\' :: 'u' :: a :: b :: c :: d :: '\\' :: 'u' :: e :: f :: g :: h :: rest => do
    let first ← hexUnit? a b c d
    if isHighHalf first then
      let second ← hexUnit? e f g h
      if isLowHalf second then
        let (text, rest) ← readString? rest
        return (Char.ofNat (0x10000 + (first - 0xd800) * 0x400 + (second - 0xdc00)) :: text, rest)
      else none
    else if isLowHalf first then none
    else
      let (text, rest) ← readString? ('\\' :: 'u' :: e :: f :: g :: h :: rest)
      return (Char.ofNat first :: text, rest)
  | '\\' :: 'u' :: a :: b :: c :: d :: rest => do
    let unit ← hexUnit? a b c d
    if isHighHalf unit || isLowHalf unit then none
    else
      let (text, rest) ← readString? rest
      return (Char.ofNat unit :: text, rest)
  | '\\' :: letter :: rest => do
    let c ← escaped? letter
    let (text, rest) ← readString? rest
    return (c :: text, rest)
  | c :: rest =>
    if c == '\\' || c.toNat < 0x20 then none
    else (readString? rest).map fun (text, rest) => (c :: text, rest)

/-! ## Values -/

/-- Lists and objects nest one less deep than this. -/
def maxDepth : Nat := 128

mutual

/-- Reads a value at the start of a text. `room` is how many more levels may be opened. -/
def readValue? (fuel room : Nat) (text : Text) : Option (Datum × Text) :=
  match fuel with
  | 0 => none
  | fuel + 1 =>
    match text with
    | '"' :: rest => (readString? rest).map fun (value, rest) => (.text value, rest)
    | '[' :: rest =>
      if room ≤ 1 then none
      else match skipBlanks rest with
        | ']' :: rest => some (.list [], rest)
        | rest => (readItems? fuel (room - 1) rest).map fun (items, rest) => (.list items, rest)
    | '{' :: rest =>
      if room ≤ 1 then none
      else match skipBlanks rest with
        | '}' :: rest => some (.record [], rest)
        | rest =>
          (readMembers? fuel (room - 1) rest).map fun (fields, rest) => (.ofFields fields, rest)
    | '-' :: rest => readNumber? true rest
    | 't' :: 'r' :: 'u' :: 'e' :: rest => some (.bool true, rest)
    | 'f' :: 'a' :: 'l' :: 's' :: 'e' :: rest => some (.bool false, rest)
    | 'n' :: 'u' :: 'l' :: 'l' :: rest => some (.null, rest)
    | rest => readNumber? false rest

def readItems? (fuel room : Nat) (text : Text) : Option (List Datum × Text) :=
  match fuel with
  | 0 => none
  | fuel + 1 =>
    match readValue? fuel room text with
    | none => none
    | some (item, rest) =>
      match skipBlanks rest with
      | ',' :: rest =>
        (readItems? fuel room (skipBlanks rest)).map fun (items, rest) => (item :: items, rest)
      | ']' :: rest => some ([item], rest)
      | _ => none

def readMembers? (fuel room : Nat) (text : Text) : Option (List (Text × Datum) × Text) :=
  match fuel with
  | 0 => none
  | fuel + 1 =>
    match text with
    | '"' :: rest =>
      match readString? rest with
      | none => none
      | some (name, rest) =>
        match skipBlanks rest with
        | ':' :: rest =>
          match readValue? fuel room (skipBlanks rest) with
          | none => none
          | some (value, rest) =>
            match skipBlanks rest with
            | ',' :: rest =>
              (readMembers? fuel room (skipBlanks rest)).map fun (fields, rest) =>
                ((name, value) :: fields, rest)
            | '}' :: rest => some ([(name, value)], rest)
            | _ => none
        | _ => none
    | _ => none

end

def parse (text : Text) : Option Datum :=
  match readValue? (2 * text.length + 2) maxDepth (skipBlanks text) with
  | some (value, rest) => if (skipBlanks rest).isEmpty then some value else none
  | none => none

end Stencil.Json
