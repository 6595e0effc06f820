import Stencil.Data.Json
import Stencil.Number.Decimal

/-!
# Reading TOML

`Toml.parse` reads a document into a table and answers nothing when the text is not one. A table is
defined at most once, by its header or by dotted keys; an inline table is closed.

`Value.toDatum?` turns a value into data. Data has neither dates, which become texts, nor numbers
that are infinite or not numbers, which make the whole value unusable.
-/

namespace Stencil.Toml

inductive Value
  | text (value : Text)
  | int (value : Int)
  | float (value : Float)
  | bool (value : Bool)
  /-- A date, a time, or both, as it is written out. -/
  | dateTime (value : Text)
  | array (items : List Value)
  | table (entries : List (Text × Value))

/-! ## Data -/

/-- A float that is neither infinite nor no number. -/
def isFinite (x : Float) : Bool := !x.isNaN && !x.isInf

mutual

def Value.toDatum? : Value → Option Datum
  | .text value => some (.text value)
  | .int value => some (.int value)
  | .float value => if isFinite value then some (.float value) else none
  | .bool value => some (.bool value)
  | .dateTime value => some (.text value)
  | .array items => (itemsToData? items).map .list
  | .table entries => (entriesToData? entries).map .ofFields

def itemsToData? : List Value → Option (List Datum)
  | [] => some []
  | item :: items =>
    match item.toDatum?, itemsToData? items with
    | some datum, some data => some (datum :: data)
    | _, _ => none

def entriesToData? : List (Text × Value) → Option (List (Text × Datum))
  | [] => some []
  | (name, value) :: entries =>
    match value.toDatum?, entriesToData? entries with
    | some datum, some data => some ((name, datum) :: data)
    | _, _ => none

end

/-! ## Documents -/

/-- What stands under a key while a document is read. -/
inductive Item
  | value (value : Value)
  /-- An implicit table has no header of its own yet, a dotted one comes from a dotted key. -/
  | table (implicit dotted : Bool) (entries : List (Text × Item))
  /-- The tables of an array, the last one first. -/
  | tables (tables : List (List (Text × Item)))

def replaceItem (key : Text) (item : Item) : List (Text × Item) → List (Text × Item)
  | [] => []
  | (other, old) :: rest =>
    if other = key then (key, item) :: rest else (other, old) :: replaceItem key item rest

/-- Changes the table at the end of a path, of which the missing tables are made. `change` is told
whether the table arose from a dotted key; with `dotted` the path belongs to one. -/
def updateAt (dotted : Bool)
    (change : Bool → List (Text × Item) → Option (List (Text × Item))) :
    List Text → Bool → List (Text × Item) → Option (List (Text × Item))
  | [], isDotted, entries => change isDotted entries
  | key :: path, _, entries =>
    match entries.lookup key with
    | none =>
      (updateAt dotted change path dotted []).map fun child =>
        entries ++ [(key, .table true dotted child)]
    | some (.table implicit isDotted child) =>
      if dotted && !implicit then none
      else (updateAt dotted change path isDotted child).map fun child =>
        replaceItem key (.table implicit isDotted child) entries
    | some (.tables (last :: earlier)) =>
      (updateAt dotted change path false last).map fun last =>
        replaceItem key (.tables (last :: earlier)) entries
    | some (.tables []) | some (.value _) => none

def insertValue (path : List Text) (value : Value) (isDotted : Bool)
    (entries : List (Text × Item)) :
    Option (List (Text × Item)) :=
  match path.getLast? with
  | none => none
  | some key =>
    updateAt true (fun dotted entries =>
      if dotted == path.dropLast.isEmpty || (entries.lookup key).isSome then none
      else some (entries ++ [(key, .value value)])) path.dropLast isDotted entries

def openTable (key : Text) (entries : List (Text × Item)) : Option (List (Text × Item)) :=
  match entries.lookup key with
  | none => some (entries ++ [(key, .table false false [])])
  | some (.table true false child) => some (replaceItem key (.table false false child) entries)
  | some _ => none

def openArrayTable (key : Text) (entries : List (Text × Item)) : Option (List (Text × Item)) :=
  match entries.lookup key with
  | none => some (entries ++ [(key, .tables [[]])])
  | some (.tables tables) => some (replaceItem key (.tables ([] :: tables)) entries)
  | some _ => none

mutual

def Item.toValue : Item → Value
  | .value value => value
  | .table _ _ entries => .table (entriesToValues entries)
  | .tables tables => .array (tablesToValues tables).reverse

def entriesToValues : List (Text × Item) → List (Text × Value)
  | [] => []
  | (key, item) :: entries => (key, item.toValue) :: entriesToValues entries

def tablesToValues : List (List (Text × Item)) → List Value
  | [] => []
  | entries :: tables => .table (entriesToValues entries) :: tablesToValues tables

end

/-! ## Blanks -/

/-- A space or a tab. -/
def isBlank (c : Char) : Bool := c == ' ' || c == '\t'

/-- A control character that may stand nowhere but in an escape. -/
def isControl (c : Char) : Bool := (c.toNat < 0x20 && c != '\t') || c == '\x7f'

def skipBlanks (text : Text) : Text := text.dropWhile isBlank

/-- The text behind a line break. -/
def lineBreak? : Text → Option Text
  | '\n' :: rest => some rest
  | '\r' :: '\n' :: rest => some rest
  | _ => none

/-- The text at the end of the line behind a comment, if there is one. -/
def skipComment? : Text → Option Text
  | '#' :: rest =>
    let body := rest.takeWhile fun c => c != '\n' && c != '\r'
    if body.any isControl then none else some (rest.dropWhile fun c => c != '\n' && c != '\r')
  | rest => some rest

def skipLines? : Nat → Text → Option Text
  | 0, text => some text
  | fuel + 1, text => do
    let rest ← skipComment? (skipBlanks text)
    match lineBreak? rest with
    | some rest => skipLines? fuel rest
    | none => return rest

/-- The text behind the end of a line, on which only blanks and a comment may be left. -/
def endLine? (text : Text) : Option Text := do
  let rest ← skipComment? (skipBlanks text)
  if rest.isEmpty then some [] else lineBreak? rest

/-! ## Strings -/

def codePoint? (digits : Text) : Option Char := do
  let n ← digits.foldlM (fun n c => (Json.hexValue? c).map fun digit => 16 * n + digit) 0
  if n < 0xd800 ∨ (0xdfff < n ∧ n < 0x110000) then some (Char.ofNat n) else none

def readEscape? : Text → Option (Char × Text)
  | 'b' :: rest => some ('\x08', rest)
  | 't' :: rest => some ('\t', rest)
  | 'n' :: rest => some ('\n', rest)
  | 'f' :: rest => some ('\x0c', rest)
  | 'r' :: rest => some ('\r', rest)
  | 'e' :: rest => some ('\x1b', rest)
  | '"' :: rest => some ('"', rest)
  | '\\' :: rest => some ('\\', rest)
  | 'x' :: a :: b :: rest => (codePoint? [a, b]).map fun c => (c, rest)
  | 'u' :: a :: b :: c :: d :: rest => (codePoint? [a, b, c, d]).map fun c => (c, rest)
  | 'U' :: a :: b :: c :: d :: e :: f :: g :: h :: rest =>
    (codePoint? [a, b, c, d, e, f, g, h]).map fun c => (c, rest)
  | _ => none

/-- The text behind blanks and at least one line break. -/
def skipContinuation? (text : Text) : Option Text :=
  let blanks := text.takeWhile fun c => isBlank c || c == '\n' || c == '\r'
  if ((skipBlanks blanks).head?.map fun c => c == '\n' || c == '\r') == some true then
    some (text.drop blanks.length)
  else none

/-- Reads a string of one line behind its opening quote. `escapes` tells whether a backslash has a
meaning. -/
def readLine? (quote : Char) (escapes : Bool) : Nat → Text → Option (Text × Text)
  | 0, _ | _, [] => none
  | fuel + 1, c :: rest =>
    if c == quote then some ([], rest)
    else if isControl c then none
    else if escapes && c == '\\' then do
      let (c, rest) ← readEscape? rest
      let (text, rest) ← readLine? quote escapes fuel rest
      return (c :: text, rest)
    else (readLine? quote escapes fuel rest).map fun (text, rest) => (c :: text, rest)

/-- Reads a string of several lines behind its opening quotes. Up to two quotes may stand before the
closing ones. -/
def readLines? (quote : Char) (escapes : Bool) : Nat → Text → Option (Text × Text)
  | 0, _ | _, [] => none
  | fuel + 1, c :: rest =>
    if [quote, quote, quote].isPrefixOf (c :: rest) then
      let quotes := (c :: rest).takeWhile (· == quote)
      if quotes.length ≤ 5 then some (quotes.drop 3, (c :: rest).drop quotes.length)
      else none
    else
      match lineBreak? (c :: rest) with
      | some rest =>
        (readLines? quote escapes fuel rest).map fun (text, rest) => ('\n' :: text, rest)
      | none =>
        if isControl c then none
        else if escapes && c == '\\' then
          match skipContinuation? rest with
          | some rest => readLines? quote escapes fuel rest
          | none => do
            let (c, rest) ← readEscape? rest
            let (text, rest) ← readLines? quote escapes fuel rest
            return (c :: text, rest)
        else (readLines? quote escapes fuel rest).map fun (text, rest) => (c :: text, rest)

def readString? (text : Text) : Option (Text × Text) :=
  match text with
  | '"' :: '"' :: '"' :: rest => readLines? '"' true (rest.length + 1) ((lineBreak? rest).getD rest)
  | '\'' :: '\'' :: '\'' :: rest =>
    readLines? '\'' false (rest.length + 1) ((lineBreak? rest).getD rest)
  | '"' :: rest => readLine? '"' true (rest.length + 1) rest
  | '\'' :: rest => readLine? '\'' false (rest.length + 1) rest
  | _ => none

/-! ## Keys -/

def isBareKey (c : Char) : Bool :=
  ('a' ≤ c && c ≤ 'z') || ('A' ≤ c && c ≤ 'Z') || Text.isDigit c || c == '_' || c == '-'

def readKey? (text : Text) : Option (Text × Text) :=
  match text with
  | '"' :: rest => readLine? '"' true (rest.length + 1) rest
  | '\'' :: rest => readLine? '\'' false (rest.length + 1) rest
  | text =>
    let key := text.takeWhile isBareKey
    if key.isEmpty then none else some (key, text.drop key.length)

/-- Reads keys with points between them. -/
def readPath? : Nat → Text → Option (List Text × Text)
  | 0, _ => none
  | fuel + 1, text => do
    let (key, rest) ← readKey? (skipBlanks text)
    match skipBlanks rest with
    | '.' :: rest =>
      let (path, rest) ← readPath? fuel rest
      return (key :: path, rest)
    | rest => return ([key], rest)

/-! ## Numbers -/

/-- Digits with single lines at the bottom between them, without those lines. -/
def digits? (isDigit : Char → Bool) (text : Text) : Option Text :=
  let groups := Text.splitOn (· == '_') text
  if groups.all fun group => !group.isEmpty && group.all isDigit then some groups.flatten else none

/-- Decimal digits that do not start with a zero, unless there is only one. -/
def wholeDigits? (text : Text) : Option Text :=
  (digits? Text.isDigit text).filter fun digits => digits.head? != some '0' || digits.length == 1

/-- A whole number of 64 bits. -/
def bounded? (n : Int) : Option Value := if Number.fitsSigned 64 n then some (.int n) else none

def based? (base : Nat) (text : Text) : Option Value := do
  let isDigit (c : Char) : Bool := (Json.hexValue? c).any (· < base)
  let digits ← digits? isDigit text
  let n : Nat := digits.foldl (fun n c => base * n + (Json.hexValue? c).getD 0) 0
  bounded? n

def exponent? (text : Text) : Option Int := do
  let (negative, digits) := Decimal.splitSign text
  let digits ← digits? Text.isDigit digits
  return if negative then -Text.decimal digits else Text.decimal digits

/-- A float with a fraction, an exponent, or both. -/
def float? (negative : Bool) (text : Text) : Option Value := do
  let mantissa := text.takeWhile fun c => c != 'e' && c != 'E'
  let exponent ← match text.drop mantissa.length with
    | [] => some 0
    | _ :: rest => exponent? rest
  let (whole, fraction) ← match Text.cut? ['.'] mantissa with
    | some (whole, fraction) => do pure (← wholeDigits? whole, ← digits? Text.isDigit fraction)
    | none => do pure (← wholeDigits? mantissa, [])
  let x := Decimal.toFloat ⟨negative, Text.decimal (whole ++ fraction), exponent - fraction.length⟩
  if x.isInf then none else some (.float x)

def number? (text : Text) : Option Value :=
  let (negative, unsigned) := Decimal.splitSign text
  let signed := unsigned.length < text.length
  match unsigned with
  | '0' :: 'x' :: digits => if signed then none else based? 16 digits
  | '0' :: 'o' :: digits => if signed then none else based? 8 digits
  | '0' :: 'b' :: digits => if signed then none else based? 2 digits
  | ['i', 'n', 'f'] => some (.float (if negative then -(1 / 0) else 1 / 0))
  | ['n', 'a', 'n'] => some (.float (0 / 0))
  | unsigned =>
    match wholeDigits? unsigned with
    | some digits => bounded? (if negative then -Text.decimal digits else Text.decimal digits)
    | none =>
      if unsigned.any fun c => c == '.' || c == 'e' || c == 'E' then float? negative unsigned
      else none

/-! ## Dates and times -/

/-- Reads a number of exactly so many digits. -/
def fixed? (count : Nat) (text : Text) : Option (Nat × Text) :=
  let digits := text.take count
  if digits.length = count ∧ digits.all Text.isDigit then
    some (Text.decimal digits, text.drop count)
  else none

def daysIn (year month : Nat) : Nat :=
  if month = 2 then
    if year % 4 = 0 ∧ (year % 100 ≠ 0 ∨ year % 400 = 0) then 29 else 28
  else if month ∈ [4, 6, 9, 11] then 30 else 31

def twoDigits (n : Nat) : Text := if n < 10 then '0' :: Text.ofNat n else Text.ofNat n

def readDate? (text : Text) : Option (Text × Text) := do
  let (year, rest) ← fixed? 4 text
  let '-' :: rest := rest | none
  let (month, rest) ← fixed? 2 rest
  let '-' :: rest := rest | none
  let (day, rest) ← fixed? 2 rest
  if 1 ≤ month ∧ month ≤ 12 ∧ 1 ≤ day ∧ day ≤ daysIn year month then
    some (text.take 10, rest)
  else none

/-- The fraction of a second, to nine places and without zeros at its end. -/
def fraction (digits : Text) : Text :=
  let shown := Text.dropEndWhile (· == '0') (digits.take 9)
  if shown.isEmpty then [] else '.' :: shown

/-- Reads a time; its seconds may be left out. -/
def readTime? (text : Text) : Option (Text × Text) := do
  let (hour, rest) ← fixed? 2 text
  let ':' :: rest := rest | none
  let (minute, rest) ← fixed? 2 rest
  if 23 < hour ∨ 59 < minute then none
  match rest with
  | ':' :: rest =>
    let (second, rest) ← fixed? 2 rest
    if 60 < second then none
    match rest with
    | '.' :: rest =>
      let digits := rest.takeWhile Text.isDigit
      if digits.isEmpty then none
      return (text.take 8 ++ fraction digits, rest.drop digits.length)
    | rest => return (text.take 8, rest)
  | rest => return (text.take 5, rest)

/-- Reads the distance of a time from the common one. -/
def offset? (text : Text) : Option Text :=
  match text with
  | [] => some []
  | ['Z'] | ['z'] => some ['Z']
  | sign :: rest => do
    let (hours, rest) ← fixed? 2 rest
    let ':' :: rest := rest | none
    let (minutes, rest) ← fixed? 2 rest
    if 23 < hours ∨ 59 < minutes ∨ !rest.isEmpty then none
    let zero := hours = 0 ∧ minutes = 0
    if sign = '+' ∨ sign = '-' then
      some ((if zero then '+' else sign) :: twoDigits hours ++ [':'] ++ twoDigits minutes)
    else none

def dateTime? (text : Text) : Option Value :=
  match readDate? text with
  | some (date, []) => some (.dateTime date)
  | some (date, mark :: rest) => do
    if mark != 'T' && mark != 't' && mark != ' ' then none
    let (time, rest) ← readTime? rest
    let offset ← offset? rest
    return .dateTime (date ++ ['T'] ++ time ++ offset)
  | none =>
    match readTime? text with
    | some (time, []) => some (.dateTime time)
    | _ => none

/-! ## Values -/

/-- A character of a value that is neither a string nor in brackets. -/
def isWord (c : Char) : Bool := isBareKey c || c == '+' || c == '.' || c == ':'

/-- Takes the characters of such a value; a space goes with them between a date and a time. -/
def takeWord (text : Text) : Text × Text :=
  let word := text.takeWhile isWord
  let rest := text.drop word.length
  match rest with
  | ' ' :: rest' =>
    if (readDate? word).any (fun (_, left) => left.isEmpty) && (readTime? rest').isSome then
      let time := rest'.takeWhile isWord
      (word ++ ' ' :: time, rest'.drop time.length)
    else (word, rest)
  | rest => (word, rest)

def wordValue? (word : Text) : Option Value :=
  if word = "true".toList then some (.bool true)
  else if word = "false".toList then some (.bool false)
  else (dateTime? word).or (number? word)

mutual

def readValue? (fuel : Nat) (text : Text) : Option (Value × Text) :=
  match fuel with
  | 0 => none
  | fuel + 1 =>
    match text with
    | '"' :: _ | '\'' :: _ => (readString? text).map fun (value, rest) => (.text value, rest)
    | '[' :: rest => do
      let (items, rest) ← readItems? fuel (← skipLines? fuel rest)
      return (.array items, rest)
    | '{' :: rest => do
      let (entries, rest) ← readEntries? fuel [] (← skipLines? fuel rest)
      return (.table (entriesToValues entries), rest)
    | text => do
      let (word, rest) := takeWord text
      return (← wordValue? word, rest)

def readItems? (fuel : Nat) (text : Text) : Option (List Value × Text) :=
  match fuel with
  | 0 => none
  | fuel + 1 =>
    match text with
    | ']' :: rest => some ([], rest)
    | text => do
      let (item, rest) ← readValue? fuel text
      match ← skipLines? fuel rest with
      | ',' :: rest =>
        let (items, rest) ← readItems? fuel (← skipLines? fuel rest)
        return (item :: items, rest)
      | ']' :: rest => return ([item], rest)
      | _ => none

/-- Reads the entries of an inline table up to its end; `entries` are those so far. -/
def readEntries? (fuel : Nat) (entries : List (Text × Item)) (text : Text) :
    Option (List (Text × Item) × Text) :=
  match fuel with
  | 0 => none
  | fuel + 1 =>
    match text with
    | '}' :: rest => some (entries, rest)
    | text => do
      let (path, rest) ← readPath? fuel text
      let '=' :: rest := rest | none
      let (value, rest) ← readValue? fuel (skipBlanks rest)
      let entries ← insertValue path value false entries
      match ← skipLines? fuel rest with
      | ',' :: rest => readEntries? fuel entries (← skipLines? fuel rest)
      | '}' :: rest => return (entries, rest)
      | _ => none

end

/-! ## Lines -/

/-- Changes the table at the end of a path by its last key. -/
def updateLast (change : Text → List (Text × Item) → Option (List (Text × Item))) (path : List Text)
    (entries : List (Text × Item)) : Option (List (Text × Item)) := do
  let key ← path.getLast?
  updateAt false (fun _ entries => change key entries) path.dropLast false entries

/-- Reads lines into a document. `header` is the path of the table that is open. -/
def readDocument? (fuel : Nat) (header : List Text) (entries : List (Text × Item)) (text : Text) :
    Option (List (Text × Item)) :=
  match fuel with
  | 0 => none
  | fuel + 1 => do
    match ← skipLines? (fuel + 1) text with
    | [] => return entries
    | '[' :: '[' :: rest =>
      let (path, rest) ← readPath? (fuel + 1) rest
      let ']' :: ']' :: rest := rest | none
      readDocument? fuel path (← updateLast openArrayTable path entries) (← endLine? rest)
    | '[' :: rest =>
      let (path, rest) ← readPath? (fuel + 1) rest
      let ']' :: rest := rest | none
      readDocument? fuel path (← updateLast openTable path entries) (← endLine? rest)
    | text =>
      let (path, rest) ← readPath? (fuel + 1) text
      let '=' :: rest := rest | none
      let (value, rest) ← readValue? (2 * (fuel + 1)) (skipBlanks rest)
      let entries ← updateAt false (insertValue path value) header false entries
      readDocument? fuel header entries (← endLine? rest)

def parse (text : Text) : Option Value :=
  let text := if text.head? == some '\ufeff' then text.tail else text
  (readDocument? (text.length + 1) [] [] text).map fun entries => .table (entriesToValues entries)

end Stencil.Toml
