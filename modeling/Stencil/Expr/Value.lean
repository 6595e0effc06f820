import Stencil.Data.Datum
import Stencil.Number.Shortest
import Stencil.Text.Quoted

/-!
# Values

What expressions work on: data, and beside it the value of a name that is not bound, texts that are
marked as safe markup, maps with any values as keys, and sequences that are produced when they are
needed. Such a sequence may have no known size.

* `Value.text` is what a value is written as, `Value.inner` what it is written as within another.
* `Value.order` is the order of values, `Value.equal` their equality. They differ on values of
  different kinds: a truth value equals a number, and yet all truth values stand before all numbers.
-/

namespace Stencil

/-- A value. The entries of a map stand in the order of their keys. -/
inductive Value
  | undefined
  | none
  | bool (value : Bool)
  | int (value : Int)
  | float (value : Float)
  | text (value : Text) (safe : Bool)
  | list (items : List Value)
  | iterator (items : List Value) (sized : Bool)
  | map (entries : List (Value × Value))

namespace Value

/-! ## Kinds -/

/-- The kinds of values, in the order in which values of different kinds stand. -/
inductive Kind
  | undefined
  | none
  | bool
  | number
  | text
  | list
  | map
  | iterator
  deriving DecidableEq, Repr

def Kind.rank : Kind → Nat
  | .undefined => 0
  | .none => 1
  | .bool => 2
  | .number => 3
  | .text => 4
  | .list => 5
  | .map => 6
  | .iterator => 7

def Kind.name : Kind → Text
  | .undefined => "undefined".toList
  | .none => "none".toList
  | .bool => "bool".toList
  | .number => "number".toList
  | .text => "string".toList
  | .list => "sequence".toList
  | .map => "map".toList
  | .iterator => "iterator".toList

def kind : Value → Kind
  | .undefined => .undefined
  | .none => .none
  | .bool _ => .bool
  | .int _ | .float _ => .number
  | .text _ _ => .text
  | .list _ => .list
  | .iterator _ _ => .iterator
  | .map _ => .map

def ofText (text : Text) : Value := .text text false

mutual

def ofDatum : Datum → Value
  | .null => .none
  | .bool value => .bool value
  | .int value => .int value
  | .float value => .float value
  | .text value => .ofText value
  | .list items => .list (ofItems items)
  | .record fields => .map (ofFields fields)

def ofItems : List Datum → List Value
  | [] => []
  | item :: items => ofDatum item :: ofItems items

def ofFields : List (Text × Datum) → List (Value × Value)
  | [] => []
  | (name, value) :: fields => (.ofText name, ofDatum value) :: ofFields fields

end

/-- The value counts as true in a condition. -/
def isTrue : Value → Bool
  | .undefined | .none => false
  | .bool value => value
  | .int value => value != 0
  | .float value => value != 0
  | .text value _ => !value.isEmpty
  | .list items => !items.isEmpty
  | .iterator items sized => !sized || !items.isEmpty
  | .map entries => !entries.isEmpty

/-! ## Written form -/

def commaSeparated (parts : List Text) : Text := Text.join ", ".toList parts

mutual

/-- What a value within another is written as: texts stand in quotes. -/
def inner : Value → Text
  | .undefined => "undefined".toList
  | .none => "None".toList
  | .bool value => if value then "True".toList else "False".toList
  | .int value => Text.ofInt value
  | .float value => Number.text value
  | .text value _ => Text.quote value
  | .list items | .iterator items _ => ['['] ++ commaSeparated (innerItems items) ++ [']']
  | .map entries => ['{'] ++ commaSeparated (innerEntries entries) ++ ['}']

def innerItems : List Value → List Text
  | [] => []
  | item :: items => inner item :: innerItems items

def innerEntries : List (Value × Value) → List Text
  | [] => []
  | (key, value) :: entries => (inner key ++ ": ".toList ++ inner value) :: innerEntries entries

end

/-- What a value is written as. -/
def written : Value → Text
  | .undefined => []
  | .text value _ => value
  | value => value.inner

/-! ## Numbers in common -/

/-- The greatest whole number of arithmetic. -/
def maxInt : Int := Number.twoTo 127 - 1

def minInt : Int := -Number.twoTo 127

def boundedInt? (n : Int) : Option Int := if minInt ≤ n ∧ n ≤ maxInt then some n else Option.none

/-- The whole number that a float is, if it is one of 64 bits. -/
def wholeFloat? (x : Float) : Option Int :=
  if x.isNaN || x.isInf || !(Binary.ofFloat x).isWhole then Option.none
  else
    let n := Number.truncate x
    if Number.fitsSigned 64 n then some n else Option.none

/-- A value as a whole number: truth values count as zero and one. -/
def toInt? : Value → Option Int
  | .bool value => some (if value then 1 else 0)
  | .int value => boundedInt? value
  | .float value => wholeFloat? value
  | _ => Option.none

/-- The float of a whole number is exactly that number. -/
def isExact (n : Int) : Bool :=
  let x := Float.ofInt n
  !x.isInf && Number.truncate x == n

/-- A value as a float; without `lossy` only where nothing is lost. -/
def toFloat? (lossy : Bool) : Value → Option Float
  | .bool value => some (if value then 1 else 0)
  | .int value => if lossy || isExact value then some (Float.ofInt value) else Option.none
  | .float value => some value
  | _ => Option.none

inductive Common
  | ints (a b : Int)
  | floats (a b : Float)
  | texts (a b : Text)

/-- Brings two values to a common form, if they have one: two texts, two whole numbers, or two
floats when one of them is a float. -/
def common? (lossy : Bool) : Value → Value → Option Common
  | .text a _, .text b _ => some (.texts a b)
  | .float a, b => (b.toFloat? lossy).map (.floats a)
  | a, .float b => (a.toFloat? lossy).map (.floats · b)
  | a, b => do return .ints (← a.toInt?) (← b.toInt?)

/-! ## Order -/

/-- The order of two values of one kind that are neither lists nor maps. -/
def orderPlain (a b : Value) : Ordering :=
  match common? false a b with
  | some (.ints a b) => compare a b
  | some (.floats a b) => Number.totalOrder a b
  | some (.texts a b) => Text.order a b
  | Option.none => .eq

mutual

/-- The order of values: by kind, then by value; lists and maps by their first difference. -/
def order (a b : Value) : Ordering :=
  match a, b with
  | .list items, .list others => orderItems items others
  | .iterator items _, .iterator others _ => orderItems items others
  | .map entries, .map others => orderEntries entries others
  | a, b => (compare a.kind.rank b.kind.rank).then (orderPlain a b)

def orderItems : List Value → List Value → Ordering
  | [], [] => .eq
  | [], _ :: _ => .lt
  | _ :: _, [] => .gt
  | item :: items, other :: others => (order item other).then (orderItems items others)

def orderEntries : List (Value × Value) → List (Value × Value) → Ordering
  | [], [] => .eq
  | [], _ :: _ => .lt
  | _ :: _, [] => .gt
  | (key, value) :: entries, (otherKey, other) :: others =>
    ((order key otherKey).then (order value other)).then (orderEntries entries others)

end

/-! ## Maps -/

def lookup (key : Value) : List (Value × Value) → Option Value
  | [] => Option.none
  | (other, value) :: entries => if order key other == .eq then some value else lookup key entries

/-- Sets the value of a key; a key that is there already stays as it is. -/
def insertEntry (key value : Value) : List (Value × Value) → List (Value × Value)
  | [] => [(key, value)]
  | (other, old) :: entries =>
    match order key other with
    | .eq => (other, value) :: entries
    | .lt => (key, value) :: (other, old) :: entries
    | .gt => (other, old) :: insertEntry key value entries

/-- The map with the given entries, the last value of a key winning. -/
def ofEntries (entries : List (Value × Value)) : Value :=
  .map (entries.foldl (fun map (key, value) => insertEntry key value map) [])

/-! ## Equality -/

def equalPlain (a b : Value) : Bool :=
  match a, b with
  | .undefined, .undefined | .none, .none => true
  | a, b =>
    match common? false a b with
    | some (.ints a b) => a == b
    | some (.floats a b) => a == b
    | some (.texts a b) => a == b
    | Option.none => false

mutual

/-- Equality of values. Numbers and truth values are equal by what they count, lists by their items
and maps by their keys. -/
def equal (a b : Value) : Bool :=
  match a, b with
  | .list items, .list others | .list items, .iterator others _
  | .iterator items _, .list others | .iterator items _, .iterator others _ =>
    equalItems items others
  | .map entries, .map others => entries.length == others.length && equalEntries entries others
  | a, b => equalPlain a b

def equalItems : List Value → List Value → Bool
  | [], [] => true
  | item :: items, other :: others => equal item other && equalItems items others
  | _, _ => false

/-- Every entry is among the others. -/
def equalEntries : List (Value × Value) → List (Value × Value) → Bool
  | [], _ => true
  | (key, value) :: entries, others =>
    (match lookup key others with
      | some other => equal value other
      | Option.none => false) && equalEntries entries others

end

/-! ## Items and attributes -/

/-- The items that a loop runs over: the characters of a text, the keys of a map, nothing for a
value that is missing. Numbers and truth values have no items. -/
def items? : Value → Option (List Value)
  | .undefined | .none => some []
  | .text value _ => some (value.map fun c => .ofText [c])
  | .list items | .iterator items _ => some items
  | .map entries => some (entries.map Prod.fst)
  | .bool _ | .int _ | .float _ => Option.none

def size? : Value → Option Nat
  | .text value _ => some value.length
  | .list items | .iterator items true => some items.length
  | .map entries => some entries.length
  | _ => Option.none

/-- The item at a place; a negative place counts from the end. -/
def itemAt? (items : List Value) (sized : Bool) (place : Int) : Option Value :=
  if 0 ≤ place then items[place.toNat]?
  else if sized && place.natAbs ≤ items.length then items[items.length - place.natAbs]?
  else Option.none

def toPlace? (value : Value) : Option Int :=
  value.toInt?.filter (Number.fitsSigned 64)

def item? (value key : Value) : Option Value :=
  match value with
  | .map entries => lookup key entries
  | .list items => key.toPlace?.bind (itemAt? items true)
  | .iterator items sized => key.toPlace?.bind (itemAt? items sized)
  | .text cs _ => key.toPlace?.bind (itemAt? (cs.map fun c => .ofText [c]) true)
  | _ => Option.none

end Value

end Stencil
