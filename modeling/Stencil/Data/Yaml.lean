import Stencil.Data.Yaml.Node
import Stencil.Number.Decimal

/-!
# Reading YAML

`Yaml.parse` reads a stream of at most one document into data. What a plain scalar stands for is
decided by its text (`plainDatum?`): a whole number in one of four bases, a float, a truth value,
nothing, or the text itself. The keys of maps are texts, whatever they look like.
-/

namespace Stencil.Yaml

/-! ## Scalars -/

/-- Digits behind a superfluous zero, which make no number. -/
def hasLeadingZero (text : Text) : Bool :=
  match (Decimal.splitSign text).2 with
  | '0' :: c :: rest => (c :: rest).all Text.isDigit
  | _ => false

def based? (base : Nat) (digits : Text) : Option Nat :=
  if digits.isEmpty then none
  else digits.foldlM (fun n c => do
    let digit ← Json.hexValue? c
    if digit < base then some (base * n + digit) else none) 0

/-- The magnitude of a whole number in one of four bases. -/
def magnitude? : Text → Option Nat
  | '0' :: 'x' :: digits => based? 16 digits
  | '0' :: 'o' :: digits => based? 8 digits
  | '0' :: 'b' :: digits => based? 2 digits
  | digits => if hasLeadingZero digits then none else based? 10 digits

def int? (text : Text) : Option Int :=
  match text with
  | '-' :: rest => (magnitude? rest).map fun n => -(n : Int)
  | '+' :: rest => (magnitude? rest).map fun n => (n : Int)
  | rest => (magnitude? rest).map fun n => (n : Int)

/-- The float that a text writes. Data has no infinity and nothing that is not a number, so their
names stand for nothing. -/
def float? (text : Text) : Option Datum :=
  let unsigned := match text with | '+' :: rest => rest | rest => rest
  let names (word : String) : List Text :=
    [('.' :: word.toList), ('.' :: word.toList.map Char.toUpper)]
  if (".Inf".toList :: names "inf").contains unsigned then some .null
  else if ["-.inf".toList, "-.Inf".toList, "-.INF".toList].contains text then some .null
  else if (".NaN".toList :: names "nan").contains text then some .null
  else if hasLeadingZero text ||
      (text.head? == some '+' && (Decimal.splitSign unsigned).2 != unsigned)
  then none
  else
    match Decimal.read? unsigned with
    | some decimal => if decimal.toFloat.isInf then none else some (.float decimal.toFloat)
    | none => none

/-- A whole number as data, when it fits one of the two kinds of 64 bits; one that only 128 bits
hold cannot be used. -/
def intDatum? (n : Int) : Option Datum :=
  if Number.fitsSigned 64 n || Number.fitsUnsigned 64 n then some (.int n) else none

/-- A whole number that 128 bits hold. -/
def isWide (n : Int) : Bool := Number.fitsSigned 128 n || Number.fitsUnsigned 128 n

def bool? (text : Text) : Option Bool :=
  if ["true".toList, "True".toList, "TRUE".toList].contains text then some true
  else if ["false".toList, "False".toList, "FALSE".toList].contains text then some false
  else none

def isNull (text : Text) : Bool :=
  ["null".toList, "Null".toList, "NULL".toList, ['~']].contains text

def plainDatum? (text : Text) : Option Datum :=
  if text.isEmpty || isNull text then some .null
  else
    match bool? text, (int? text).filter isWide, float? text with
    | some value, _, _ => some (.bool value)
    | none, some n, _ => intDatum? n
    | none, none, some float => some float
    | none, none, none => some (.text text)

/-- A tag of the format itself. -/
def coreTag (name : String) : Text := "tag:yaml.org,2002:".toList ++ name.toList

def scalarDatum? (text : Text) (plain : Bool) (tag : Option Text) : Option Datum :=
  match tag with
  | none => if plain then plainDatum? text else some (.text text)
  | some tag =>
    if tag = coreTag "bool" then (bool? text).map .bool
    else if tag = coreTag "int" then (int? text).bind intDatum?
    else if tag = coreTag "float" then float? text
    else if tag = coreTag "null" then (if isNull text then some .null else none)
    else if tag.head? == some '!' then none
    else some (.text text)

/-- The tag is one that data can have. -/
def isUsualTag (tag : Option Text) : Bool := tag.all fun tag => tag.head? != some '!'

def maxDepth : Nat := 128

mutual

/-- The data of a node that is at most so deep. -/
def Node.toDatum? : Nat → Node → Option Datum
  | _, .scalar text plain tag => scalarDatum? text plain tag
  | 0, _ => none
  | depth + 1, .list items tag =>
    if isUsualTag tag then (itemsToData? depth items).map .list else none
  | depth + 1, .map entries tag =>
    if isUsualTag tag then (entriesToData? depth entries).map .ofFields else none

def itemsToData? : Nat → List Node → Option (List Datum)
  | _, [] => some []
  | depth, item :: items => do return (← Node.toDatum? depth item) :: (← itemsToData? depth items)

def entriesToData? : Nat → List (Node × Node) → Option (List (Text × Datum))
  | _, [] => some []
  | depth, (.scalar key _ _, value) :: entries => do
    return (key, ← Node.toDatum? depth value) :: (← entriesToData? depth entries)
  | _, _ => none

end

/-- Reads a stream of one document; an empty stream stands for nothing. -/
def parse (text : Text) : Option Datum := do
  let tokens ← Token.scan? text
  let node ← Node.ofTokens? tokens
  node.toDatum? maxDepth

end Stencil.Yaml
