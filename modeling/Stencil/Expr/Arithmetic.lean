import Stencil.Expr.Token
import Stencil.Expr.Value

/-!
# Operations on values

Arithmetic on whole numbers is exact up to 128 bits and fails beyond. A float among the operands
makes both floats. A sum also joins texts and sequences, a product repeats them.
-/

namespace Stencil.Value

/-- A whole number as the result of arithmetic. -/
def ofInt (n : Int) : Except Failure Value :=
  match boundedInt? n with
  | some n => .ok (.int n)
  | Option.none => .error .invalidOperation

def arithmetic (ints : Int → Int → Option Int) (floats : Float → Float → Float) (a b : Value) :
    Except Failure Value :=
  match common? true a b with
  | some (.ints a b) =>
    match ints a b with
    | some n => ofInt n
    | Option.none => .error .invalidOperation
  | some (.floats a b) => .ok (.float (floats a b))
  | _ => .error .invalidOperation

/-- The items of a list or of a sequence that is produced when it is needed. -/
def sequence? : Value → Option (List Value × Bool)
  | .list items => some (items, true)
  | .iterator items sized => some (items, sized)
  | _ => Option.none

def add (a b : Value) : Except Failure Value :=
  match a.sequence?, b.sequence? with
  | some (items, sized), some (others, othersSized) =>
    .ok (.iterator (items ++ others) (sized && othersSized))
  | _, _ =>
    match a, b with
    | .text a _, .text b _ => .ok (.ofText (a ++ b))
    | a, b => arithmetic (fun a b => some (a + b)) (· + ·) a b

def subtract : Value → Value → Except Failure Value :=
  arithmetic (fun a b => some (a - b)) (· - ·)

def toCount (value : Value) : Except Failure Nat :=
  match value.toInt? with
  | some n => if 0 ≤ n then .ok n.toNat else .error .invalidOperation
  | Option.none => .error .invalidOperation

/-- Items several times over. -/
def repeated (items : List Value) (sized : Bool) (count : Value) : Except Failure Value :=
  if sized then
    count.toCount.map fun n => .iterator (List.replicate n items).flatten true
  else .error .invalidOperation

def multiply (a b : Value) : Except Failure Value :=
  match a, b with
  | .text a _, b | b, .text a _ =>
    b.toCount.map fun n => .ofText (List.replicate n a).flatten
  | a, b =>
    match a.sequence?, b.sequence? with
    | some (items, sized), _ => repeated items sized b
    | Option.none, some (items, sized) => repeated items sized a
    | Option.none, Option.none => arithmetic (fun a b => some (a * b)) (· * ·) a b

/-- The quotient, which is always a float. -/
def divide (a b : Value) : Except Failure Value :=
  match a.toFloat? true, b.toFloat? true with
  | some a, some b => .ok (.float (a / b))
  | _, _ => .error .invalidOperation

/-- The quotient that leaves a remainder that is not negative. -/
def floorDivide : Value → Value → Except Failure Value :=
  arithmetic (fun a b => if b = 0 then Option.none else some (a / b)) Number.euclideanQuotient

/-- The remainder: of whole numbers it is not negative, of floats it has the sign of the first. -/
def modulo : Value → Value → Except Failure Value :=
  arithmetic (fun a b => if b = 0 then Option.none else some (a % b)) Number.remainder

/-- A whole number to the power of another, when the result may be in bounds. -/
def powerInt? (a b : Int) : Option Int :=
  if !Number.fitsUnsigned 32 b then Option.none
  else if a.natAbs ≤ 1 then some (if b = 0 then 1 else if b % 2 = 0 then a * a else a)
  else if 128 < b then Option.none
  else some (Int.pow a b.toNat)

def power : Value → Value → Except Failure Value := arithmetic powerInt? Float.pow

def negate : Value → Except Failure Value
  | .int n => ofInt (-n)
  | .float x => .ok (.float (-x))
  | _ => .error .invalidOperation

def joined (a b : Value) : Value := .ofText (a.written ++ b.written)

/-- The value is in a container: a part of a text, a key of a map, or an item. -/
def isIn (value container : Value) : Except Failure Bool :=
  match container with
  | .undefined => .ok false
  | .text whole _ => .ok (Text.includes value.written whole)
  | .map entries => .ok (lookup value entries).isSome
  | .list items | .iterator items _ => .ok (items.any fun item => equal item value)
  | _ => .error .invalidOperation

/-! ## Slices -/

/-- A bound of a slice; nothing when it is left open. -/
def toBound (value : Value) : Except Failure (Option Int) :=
  match value with
  | .none => .ok Option.none
  | value =>
    match value.toPlace? with
    | some n => .ok (some n)
    | Option.none => .error .invalidOperation

def everyNth {α : Type} (step : Nat) : Nat → List α → List α
  | _, [] => []
  | 0, item :: items => item :: everyNth step (step - 1) items
  | skip + 1, _ :: items => everyNth step skip items

/-- A slice that runs forwards. A start that lies before the first item leaves nothing. -/
def sliceForwards {α : Type} (start stop : Option Int) (step size : Nat) (items : List α) :
    List α :=
  let start := start.getD 0
  let first : Int := if start < 0 then size + start else start
  let last : Int :=
    match stop with
    | some stop => if stop < 0 then size + stop else stop
    | Option.none => size
  if first < 0 then []
  else if last < 0 then everyNth step 0 (items.drop first.toNat)
  else everyNth step 0 ((items.drop first.toNat).take (last - first).toNat)

def sliceBackwards {α : Type} (start stop : Option Int) (step size : Nat) (items : List α) :
    List α :=
  let first : Nat :=
    match start with
    | Option.none => size - 1
    | some start =>
      if size ≤ start then size - 1 else if 0 ≤ start then start.toNat else (size + start).toNat
  let last : Nat :=
    match stop with
    | Option.none => 0
    | some stop => if stop < 0 then (size + stop).toNat else stop.toNat
  let count := if last = 0 then (first + step) / step else (first - last + step - 1) / step
  (List.range count).filterMap fun i => items[first - i * step]?

def sliceItems {α : Type} (start stop : Option Int) (step : Int) (size : Nat) (items : List α) :
    List α :=
  if 0 < step then sliceForwards start stop step.toNat size items
  else sliceBackwards start stop step.natAbs size items

/-- The part of a text or of a sequence from one place up to another, in steps. -/
def slice (value start stop step : Value) : Except Failure Value := do
  let start ← start.toBound
  let stop ← stop.toBound
  let step := (← step.toBound).getD 1
  if step = 0 then throw .invalidOperation
  match value with
  | .text cs _ => return .ofText (sliceItems start stop step cs.length cs)
  | .undefined | .none => return .list []
  | .list items => return .iterator (sliceItems start stop step items.length items) true
  | .iterator items sized =>
    return .iterator (sliceItems start stop step (if sized then items.length else 0) items) sized
  | _ => throw .invalidOperation

end Stencil.Value
