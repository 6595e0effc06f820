/-!
# Text

A text is a list of characters. Offsets into a text count the bytes of its UTF-8 form; they are a
measure on the characters before a place (`byteSize`), and `splitAtByte` turns an offset back into
the place, when it does not fall inside a character.

The rest of the module cuts texts: at the first or the last place of a separator (`cut?`,
`cutLast?`), at every separator (`splitOn`), and at the blanks of its ends (`trim`).
-/

namespace Stencil

/-- A text as its characters, first to last. -/
abbrev Text := List Char

namespace Text

/-! ## Offsets -/

/-- The number of bytes of the UTF-8 form. -/
def byteSize : Text → Nat
  | [] => 0
  | c :: rest => c.utf8Size + byteSize rest

/-- The text before and the text after a byte offset; nothing when the offset lies beyond the end or
inside a character. -/
def splitAtByte (text : Text) (offset : Nat) : Option (Text × Text) :=
  if offset = 0 then some ([], text)
  else match text with
    | [] => none
    | c :: rest =>
      if c.utf8Size ≤ offset then
        (splitAtByte rest (offset - c.utf8Size)).map fun (before, after) => (c :: before, after)
      else none

/-- The last character before a place, when `earlier` is the one before the text itself. -/
def lastOr (earlier : Option Char) (text : Text) : Option Char :=
  text.getLast?.or earlier

/-! ## Blanks and digits -/

/-- The characters with the property `White_Space`. -/
def isBlank (c : Char) : Bool :=
  ('\t' ≤ c && c ≤ '\r') || c == ' ' || c == '\u0085' || c == '\u00a0' || c == '\u1680' ||
    ('\u2000' ≤ c && c ≤ '\u200a') || c == '\u2028' || c == '\u2029' || c == '\u202f' ||
    c == '\u205f' || c == '\u3000'

def isDigit (c : Char) : Bool := '0' ≤ c && c ≤ '9'

def digitValue (c : Char) : Nat := c.toNat - '0'.toNat

def decimal (digits : Text) : Nat := digits.foldl (fun n c => 10 * n + digitValue c) 0

def ofNat (n : Nat) : Text := Nat.toDigits 10 n

def ofInt (n : Int) : Text := if n < 0 then '-' :: ofNat n.natAbs else ofNat n.natAbs

/-! ## Ends -/

/-- Drops the longest run of characters of `p` at the end. -/
def dropEndWhile (p : Char → Bool) (text : Text) : Text := (text.reverse.dropWhile p).reverse

def trimStart (text : Text) : Text := text.dropWhile isBlank

def trimEnd (text : Text) : Text := dropEndWhile isBlank text

def trim (text : Text) : Text := trimEnd (trimStart text)

/-- The text without `mark` at its start, when it starts with it. -/
def dropStart? (mark text : Text) : Option Text := mark.isPrefixOf? text

def dropEnd? (mark text : Text) : Option Text := mark.isSuffixOf? text

/-! ## Separators -/

/-- The text before and after the first place of `mark`. -/
def cut? (mark : Text) : Text → Option (Text × Text)
  | [] => (dropStart? mark []).map fun after => ([], after)
  | c :: rest =>
    match dropStart? mark (c :: rest) with
    | some after => some ([], after)
    | none => (cut? mark rest).map fun (before, after) => (c :: before, after)

def cutLast? (mark : Text) : Text → Option (Text × Text)
  | [] => (dropStart? mark []).map fun after => ([], after)
  | c :: rest =>
    match cutLast? mark rest with
    | some (before, after) => some (c :: before, after)
    | none => (dropStart? mark (c :: rest)).map fun after => ([], after)

/-- `mark` stands somewhere in the text. -/
def includes (mark text : Text) : Bool := (cut? mark text).isSome

/-- Puts a character in front of the first part. -/
def consFirst (c : Char) : List Text → List Text
  | [] => [[c]]
  | part :: parts => (c :: part) :: parts

/-- The parts between the characters of `p`. -/
def splitOn (p : Char → Bool) : Text → List Text
  | [] => [[]]
  | c :: rest => if p c then [] :: splitOn p rest else consFirst c (splitOn p rest)

/-- The parts between the places of a mark that is not empty; `skip` characters of the place before
are still to be passed over. -/
def piecesFrom (mark : Text) : Nat → Text → List Text
  | _, [] => [[]]
  | skip + 1, _ :: rest => piecesFrom mark skip rest
  | 0, c :: rest =>
    if mark.isPrefixOf (c :: rest) then [] :: piecesFrom mark (mark.length - 1) rest
    else consFirst c (piecesFrom mark 0 rest)

/-- The parts between the places of `mark`, from left to right without overlaps. Nothing stands at
both ends and between any two characters. -/
def pieces (mark text : Text) : List Text :=
  if mark.isEmpty then [] :: text.map (fun c => [c]) ++ [[]] else piecesFrom mark 0 text

/-- The parts between blanks, empty ones left out. -/
def words (text : Text) : List Text := (splitOn isBlank text).filter (!·.isEmpty)

/-- The parts with `mark` between neighbours. -/
def join (mark : Text) : List Text → Text
  | [] => []
  | [part] => part
  | part :: parts => part ++ mark ++ join mark parts

/-! ## Order -/

/-- Alphabetical order by code point, which is also the order of the UTF-8 bytes. -/
def order : Text → Text → Ordering
  | [], [] => .eq
  | [], _ :: _ => .lt
  | _ :: _, [] => .gt
  | a :: s, b :: t => (compare a.toNat b.toNat).then (order s t)

def before (a b : Text) : Bool := order a b == .lt

end Text

end Stencil
