import Stencil.Expr.Arithmetic
import Stencil.Number.Decimal
import Stencil.Text.Casing
import Stencil.Text.Markup

/-!
# Filters, tests and functions

The operations that expressions call by name. A filter takes a value and arguments, a test a value
alone, a function arguments alone. Where an operation wants a text, any value is taken as it is
written.
-/

namespace Stencil

structure Arguments where
  positional : List Value
  named : List (Text × Value)

abbrev Filter := Value → Arguments → Except Failure Value

namespace Arguments

/-- All arguments by position; those with names form a map behind the others. -/
def flat (args : Arguments) : List Value :=
  if args.named.isEmpty then args.positional
  else args.positional ++
    [Value.ofEntries (args.named.map fun (name, value) => (Value.ofText name, value))]

def named? (args : Arguments) (name : Text) : Option Value := args.named.lookup name

/-- Only the given names are used, and no places. -/
def onlyNamed (args : Arguments) (names : List Text) : Except Failure Unit :=
  if args.positional.isEmpty && args.named.all fun (name, _) => names.contains name then .ok ()
  else .error .tooManyArguments

def flag (args : Arguments) (name : Text) : Except Failure Bool :=
  match args.named? name with
  | none | some .none | some .undefined => .ok false
  | some (.bool value) => .ok value
  | some _ => .error .invalidOperation

def word? (args : Arguments) (name : Text) : Except Failure (Option Text) :=
  match args.named? name with
  | none | some .none | some .undefined => .ok none
  | some (.text value _) => .ok (some value)
  | some _ => .error .invalidOperation

end Arguments

namespace Filter

/-! ## Arguments -/

def noArguments (f : Value → Except Failure Value) : Filter := fun value args =>
  if args.flat.isEmpty then f value else .error .tooManyArguments

/-- A filter with arguments that may be left out or be without a value. -/
def optionalArguments (most : Nat) (f : Value → List (Option Value) → Except Failure Value) :
    Filter := fun value args =>
  let given := args.flat.map fun arg =>
    match arg with
    | .undefined | .none => none
    | arg => some arg
  if most < given.length then .error .tooManyArguments
  else f value (given ++ List.replicate (most - given.length) none)

/-- A filter with at most so many arguments, all of them texts. Arguments with names make no text.
-/
def textArguments (most : Nat) (f : Filter) : Filter := fun value args =>
  if args.named.isEmpty then f value args
  else if args.positional.length < most then .error .invalidOperation
  else .error .tooManyArguments

def onText (f : Text → Text) : Filter := noArguments fun value => .ok (.ofText (f value.written))

def toInt? : Option Value → Except Failure (Option Int)
  | none => .ok none
  | some value =>
    match value.toInt? with
    | some n => .ok (some n)
    | none => .error .invalidOperation

/-! ## Texts -/

/-- A punctuation mark among the first 128 characters. -/
def isPunctuation (c : Char) : Bool :=
  ('!' ≤ c && c ≤ '/') || (':' ≤ c && c ≤ '@') || ('[' ≤ c && c ≤ '\x60') || ('{' ≤ c && c ≤ '~')

/-- Writes the first character of every word as a capital, from a place where a word starts or not.
-/
def titleFrom (starts : Bool) : Text → Text
  | [] => []
  | c :: rest =>
    if isPunctuation c || Text.isBlank c then c :: titleFrom true rest
    else (if starts then Text.upperChar c else Text.lowerChar c) ++ titleFrom false rest

/-- Writes the first character as a capital and all others small. -/
def capitalize : Text → Text
  | [] => []
  | c :: rest => Text.upperChar c ++ Text.lower rest

/-- Drops blanks, or the given characters, at both ends. -/
def trim : Filter := textArguments 1 <| optionalArguments 1 fun value args =>
  let text := value.written
  match args with
  | [some chars] =>
    let drops := chars.written.contains
    .ok (.ofText (Text.dropEndWhile drops (text.dropWhile drops)))
  | _ => .ok (.ofText text.trim)

def replace : Filter := textArguments 2 fun value args =>
  match args.flat with
  | [old, new] => .ok (.ofText (Text.join new.written (Text.pieces old.written value.written)))
  | [] | [_] => .error .missingArgument
  | _ => .error .tooManyArguments

/-- The first parts one by one and all others as one. -/
def limitPieces (mark : Text) (most : Option Nat) (pieces : List Text) : List Text :=
  match most with
  | some most =>
    if pieces.length ≤ most then pieces
    else pieces.take (most - 1) ++ [Text.join mark (pieces.drop (most - 1))]
  | none => pieces

/-- Words up to a number; what follows them stays together. -/
def limitWords : Nat → Text → List Text
  | 0, _ => []
  | 1, text => if text.trimStart.isEmpty then [] else [text.trimStart]
  | most + 1, text =>
    let rest := text.trimStart
    if rest.isEmpty then []
    else rest.takeWhile (!Text.isBlank ·) ::
      limitWords most (rest.dropWhile (!Text.isBlank ·))

/-- The parts of a text between the places of another, or its words. -/
def split : Filter := optionalArguments 2 fun value args => do
  let (mark, limit) := (args.head?.join, args.tail.head?.join)
  let most := (← toInt? limit).bind fun n => if 0 ≤ n then some (n.toNat + 1) else none
  match value, mark with
  | .text text _, none =>
    let words := match most with | some most => limitWords most text | none => text.words
    return .iterator (words.map .ofText) false
  | .text text _, some (.text mark _) =>
    return .iterator ((limitPieces mark most (Text.pieces mark text)).map .ofText) false
  | _, _ => throw .invalidOperation

/-- Writes items one behind the other; the mark stands in front of an item when something is written
already. -/
def joinItems (mark : Text) (started : Bool) : List Value → Text
  | [] => []
  | item :: items =>
    (if started then mark else []) ++ item.written ++
      joinItems mark (started || !item.written.isEmpty) items

def join : Filter := textArguments 1 <| optionalArguments 1 fun value args =>
  match value.items? with
  | some items =>
    .ok (.ofText (joinItems ((args.head?.join.map Value.written).getD []) false items))
  | none => .error .invalidOperation

/-- Writes characters with a meaning in markup as entities, the slash among them. -/
def escapeText (text : Text) : Text :=
  text.flatMap fun c => if c == '/' then "&#x2f;".toList else Markup.escapeChar c

/-- Marks a value as safe, with its markup escaped unless it is safe already. -/
def escape : Filter := noArguments fun value =>
  match value with
  | .text _ true => .ok value
  | value => .ok (.text (escapeText value.written) true)

def safe : Filter := noArguments fun value => .ok (.text value.written true)

/-! ## Numbers -/

def abs : Filter := noArguments fun value =>
  match value with
  | .int n => Value.ofInt n.natAbs
  | .float x => .ok (.float x.abs)
  | _ => .error .invalidOperation

def powerOfTen (exponent : Int) : Float :=
  let power := Float.ofScientific 1 false exponent.natAbs
  if exponent < 0 then 1 / power else power

/-- Rounds to a number of places, a half away from zero. -/
def round : Filter := optionalArguments 1 fun value args => do
  let places := (← toInt? args.head?.join).getD 0
  if !Number.fitsSigned 32 places then throw .invalidOperation
  match value with
  | .int n => return .int n
  | .float x =>
    let power := powerOfTen (max (-400) (min places 400))
    return .float ((power * x).round / power)
  | _ => throw .invalidOperation

/-- The whole part of a float, kept within the bounds of whole numbers. -/
def wholePart (x : Float) : Int :=
  if x.isNaN then 0
  else if x.isInf then (if Number.isNegative x then Value.minInt else Value.maxInt)
  else max Value.minInt (min (Number.truncate x) Value.maxInt)

def readInt? (text : Text) : Option Int := (Decimal.readExponent? text).bind Value.boundedInt?

def readFloat? (text : Text) : Option Float :=
  let (negative, unsigned) := Decimal.splitSign text
  let word := unsigned.map Char.toLower
  let sign (x : Float) : Float := if negative then -x else x
  if word = "inf".toList ∨ word = "infinity".toList then some (sign (1 / 0))
  else if word = "nan".toList then some (sign (0 / 0))
  else (Decimal.read? text).map Decimal.toFloat

def int : Filter := noArguments fun value =>
  match value with
  | .undefined | .none => .ok (.int 0)
  | .bool b => .ok (.int (if b then 1 else 0))
  | .int n => .ok (.int n)
  | .float x => .ok (.int (wholePart x))
  | .text text _ =>
    match readInt? text, readFloat? text with
    | some n, _ => .ok (.int n)
    | none, some x => .ok (.int (wholePart x))
    | none, none => .error .invalidOperation
  | _ => .error .invalidOperation

def float : Filter := noArguments fun value =>
  match value with
  | .undefined | .none => .ok (.float 0)
  | .text text _ =>
    match readFloat? text with
    | some x => .ok (.float x)
    | none => .error .invalidOperation
  | value =>
    match value.toFloat? true with
    | some x => .ok (.float x)
    | none => .error .invalidOperation

/-! ## Sequences and maps -/

def items (value : Value) : Except Failure (List Value) :=
  match value.items? with
  | some items => .ok items
  | none => .error .invalidOperation

def length : Filter := noArguments fun value =>
  match value.size? with
  | some n => .ok (.int n)
  | none => .error .invalidOperation

def first : Filter := noArguments fun value =>
  match value with
  | .text _ _ | .list _ | .iterator _ _ | .map _ =>
    .ok ((value.items?.bind List.head?).getD .undefined)
  | _ => .error .invalidOperation

def last : Filter := noArguments fun value =>
  match value with
  | .text _ _ | .list _ | .iterator _ _ =>
    .ok ((value.items?.bind List.getLast?).getD .undefined)
  | _ => .error .invalidOperation

def reverse : Filter := noArguments fun value =>
  match value with
  | .undefined | .none => .ok value
  | .text cs _ => .ok (.ofText cs.reverse)
  | .list items | .iterator items _ => .ok (.iterator items.reverse true)
  | .map entries => .ok (.iterator (entries.map Prod.fst).reverse true)
  | _ => .error .invalidOperation

def orderIgnoringCase (a b : Value) : Ordering :=
  match a, b with
  | .text a _, .text b _ => Text.order (a.map Char.toLower) (b.map Char.toLower)
  | a, b => Value.order a b

/-- The order that an operation sorts by. -/
def orderBy (caseSensitive : Bool) (a b : Value) : Ordering :=
  if caseSensitive then Value.order a b else orderIgnoringCase a b

/-- Sorts by keys; items with equal keys stay as they are. -/
def sortBy {α : Type} (caseSensitive : Bool) (key : α → Value) (items : List α) : List α :=
  items.mergeSort fun a b => orderBy caseSensitive (key a) (key b) != .gt

/-- The part of a value at the end of a path of names and places with points between. -/
def atPath (value : Value) (path : Text) : Except Failure Value :=
  (Text.splitOn (· == '.') path).foldlM (fun value part =>
    match value with
    | .undefined => .error .undefinedValue
    | value =>
      let key :=
        if !part.isEmpty && part.all Text.isDigit then .int (Text.decimal part)
        else Value.ofText part
      .ok ((value.item? key).getD .undefined)) value

def sort : Filter := fun value args => do
  let items ← items value
  let caseSensitive ← args.flag "case_sensitive".toList
  let path ← args.word? "attribute".toList
  let key (item : Value) : Value :=
    match path with
    | some path => (atPath item path).toOption.getD .undefined
    | none => item
  let sorted := sortBy caseSensitive key items
  let backwards ← args.flag "reverse".toList
  args.onlyNamed ["case_sensitive".toList, "attribute".toList, "reverse".toList]
  return .list (if backwards then sorted.reverse else sorted)

def pair (entry : Value × Value) : Value := .list [entry.1, entry.2]

/-- The entries of a map in the order of their keys or of their values. -/
def dictsort : Filter := fun value args => do
  let .map entries := value | throw .invalidOperation
  let byValue ←
    match ← args.word? "by".toList with
    | none => pure false
    | some word =>
      if word = "key".toList then pure false
      else if word = "value".toList then pure true
      else throw .invalidOperation
  let caseSensitive ← args.flag "case_sensitive".toList
  let sorted := sortBy caseSensitive (fun entry => if byValue then entry.2 else entry.1) entries
  let backwards ← args.flag "reverse".toList
  args.onlyNamed ["by".toList, "case_sensitive".toList, "reverse".toList]
  return .list ((if backwards then sorted.reverse else sorted).map pair)

def entries : Filter := noArguments fun value =>
  match value with
  | .map entries => .ok (.list (entries.map pair))
  | _ => .error .invalidOperation

def dropRepeated (key : Value → Value) (seen : List Value) : List Value → List Value
  | [] => []
  | item :: items =>
    if seen.any fun other => Value.order (key item) other == .eq then dropRepeated key seen items
    else item :: dropRepeated key (key item :: seen) items

/-- Each item once, where case does not count unless it is asked for. -/
def unique : Filter := fun value args => do
  let path ← args.word? "attribute".toList
  let caseSensitive ← args.flag "case_sensitive".toList
  args.onlyNamed ["attribute".toList, "case_sensitive".toList]
  let items ← items value
  let fold (value : Value) : Value :=
    match value with
    | .text text _ => if caseSensitive then value else .ofText text.lower
    | value => value
  match path with
  | some path =>
    let _ ← items.mapM fun item => atPath item path
    return .list (dropRepeated (fun item => fold ((atPath item path).toOption.getD item)) [] items)
  | none => return .list (dropRepeated fold [] items)

/-- The item that no other one stands before, and of several the first. -/
def least : Filter := noArguments fun value => do
  match ← items value with
  | [] => return .undefined
  | first :: rest =>
    return rest.foldl (fun best item => if Value.order item best == .lt then item else best) first

/-- The item that stands before no other one, and of several the last. -/
def greatest : Filter := noArguments fun value => do
  match ← items value with
  | [] => return .undefined
  | first :: rest =>
    return rest.foldl (fun best item => if Value.order item best == .lt then best else item) first

/-- The sum of numbers; items without a value are left out. -/
def sum : Filter := noArguments fun value => do
  (← items value).foldlM (fun total item =>
    match item with
    | .undefined => .ok total
    | .int _ | .float _ => total.add item
    | _ => .error .invalidOperation) (.int 0)

/-- Another value in place of a missing one, or, when asked for, of one that does not count as true.
-/
def default : Filter := optionalArguments 2 fun value args => do
  let other := (args.head?.join).getD (.ofText [])
  let lax ←
    match args.tail.head?.join with
    | none => pure false
    | some (.bool lax) => pure lax
    | some _ => throw .invalidOperation
  match value with
  | .undefined => return other
  | value => return if lax && !value.isTrue then other else value

/-! ## By name -/

def table : List (String × Filter) :=
  [("upper", onText Text.upper), ("lower", onText Text.lower), ("title", onText (titleFrom true)),
    ("capitalize", onText capitalize), ("trim", trim), ("replace", replace), ("split", split),
    ("join", join), ("escape", escape), ("safe", safe), ("abs", abs), ("round", round),
    ("int", int), ("float", float), ("length", length), ("first", first), ("last", last),
    ("reverse", reverse), ("sort", sort), ("dictsort", dictsort), ("items", entries),
    ("unique", unique), ("min", least), ("max", greatest), ("sum", sum), ("default", default)]

def find? (name : Text) : Option Filter := table.lookup (String.ofList name)

end Filter

/-! ## Tests -/

namespace Test

/-- The value is a whole number that two divides with the given remainder. -/
def hasParity (rest : Int) (value : Value) : Bool :=
  match value.toInt? with
  | some n => n % 2 == rest
  | none => false

def table : List (String × (Value → Bool)) :=
  [("defined", fun value => value.kind != .undefined), ("none", fun value => value.kind == .none),
    ("number", fun value => value.kind == .number), ("string", fun value => value.kind == .text),
    ("sequence", fun value => value.kind == .list), ("mapping", fun value => value.kind == .map),
    ("even", hasParity 0), ("odd", hasParity 1)]

def find? (name : Text) : Option (Value → Bool) := table.lookup (String.ofList name)

end Test

/-! ## Functions -/

namespace Function

def maxRange : Nat := 100000

def toBound (value : Value) : Except Failure Int :=
  match value.toPlace? with
  | some n => .ok n
  | none => .error .invalidOperation

/-- An argument that may be left out as a bound of a range. -/
def toBound? : Option Value → Except Failure (Option Int)
  | none | some .undefined | some .none => .ok none
  | some value => (toBound value).map some

/-- The whole numbers from a bound up to, and without, another, in steps. -/
def range (args : Arguments) : Except Failure Value := do
  let (first, others) ←
    match args.flat with
    | [] => throw .missingArgument
    | first :: others => pure (first, others)
  let first ← toBound first
  let second ← toBound? others.head?
  let step ← toBound? others.tail.head?
  if 2 < others.length then throw .tooManyArguments
  let (start, stop) := match second with | some stop => (first, stop) | none => (0, first)
  let step := step.getD 1
  if step = 0 then throw .invalidOperation
  let distance := if 0 < step then (stop - start).toNat else (start - stop).toNat
  let count := (distance + step.natAbs - 1) / step.natAbs
  if maxRange < count then throw .invalidOperation
  return .iterator ((List.range count).map fun (i : Nat) => .int (start + step * i)) true

def table : List (String × (Arguments → Except Failure Value)) := [("range", range)]

def find? (name : Text) : Option (Arguments → Except Failure Value) :=
  table.lookup (String.ofList name)

end Function

end Stencil
