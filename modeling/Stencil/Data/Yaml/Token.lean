import Stencil.Data.Yaml.Scalar

/-!
# YAML tokens

`Token.scan?` cuts a stream into tokens. The nesting that indentation expresses becomes brackets of
its own (`openBlockList`, `openBlockMap`, `closeBlock`), so that what follows need not look at
columns.

A key without a question mark is known as a key only when its colon comes. The scan therefore
remembers where a key could have started (`Candidate`), and puts `key` in front of it afterwards.
Such a key ends on the line where it starts and is at most 1024 characters long.
-/

namespace Stencil.Yaml

inductive Token
  /-- The version of the format. -/
  | version
  /-- A short form for the start of tags. -/
  | tagHandle (handle start : Text)
  | documentStart
  | documentEnd
  | openBlockList
  | openBlockMap
  | closeBlock
  | openList
  | closeList
  | openMap
  | closeMap
  /-- The dash in front of an item. -/
  | dash
  | comma
  | key
  | value
  | aliasOf (name : Text)
  | anchor (name : Text)
  | tag (handle suffix : Text)
  | scalar (text : Text) (plain : Bool)
  deriving DecidableEq, Repr

/-- A place where a key could have started. -/
structure Candidate where
  /-- The number of tokens before it. -/
  position : Nat
  line : Nat
  column : Nat
  index : Nat

/-- The longest key without a question mark. -/
def maxKeyLength : Nat := 1024

/-- How far the scan of a stream has come. -/
structure Scan where
  place : Place
  /-- The tokens so far, the last one first. -/
  tokens : List Token
  /-- The columns of the blocks that are open, the innermost first. -/
  blocks : List Nat
  /-- A key without a question mark can start here. -/
  keyAllowed : Bool
  /-- The last place where a key could have started, at this level of brackets. -/
  candidate : Option Candidate
  /-- The same for the levels around it, the innermost first. -/
  outer : List (Option Candidate)

namespace Scan

/-- The start of a stream. A mark of the byte order is passed over. -/
def start (text : Text) : Scan :=
  let place := Place.start text
  ⟨if text.head? == some '\ufeff' then place.skip 1 else place, [], [], true, none, []⟩

/-- The place is within brackets. -/
def flow (s : Scan) : Bool := !s.outer.isEmpty

/-- The first column of what belongs to the innermost block. -/
def indent (s : Scan) : Nat := s.blocks.head?.elim 0 (· + 1)

def push (s : Scan) (token : Token) : Scan := { s with tokens := token :: s.tokens }

/-- Adds a token in front of all but the first `position` tokens. -/
def insert (s : Scan) (position : Nat) (token : Token) : Scan :=
  let count := s.tokens.length - position
  { s with tokens := s.tokens.take count ++ token :: s.tokens.drop count }

def moveTo (s : Scan) (place : Place) : Scan := { s with place }

/-- Remembers that a key could start here. -/
def mayBeKey (s : Scan) : Scan :=
  if s.keyAllowed then
    { s with candidate := some ⟨s.tokens.length, s.place.line, s.place.column, s.place.index⟩ }
  else s

/-- Opens a block at a column, unless one is open there. -/
def openBlock (s : Scan) (column position : Nat) (token : Token) : Scan :=
  if s.flow || column < s.indent then s
  else { s.insert position token with blocks := column :: s.blocks }

/-- Closes the blocks that are right of a column; without a column, all of them. -/
def closeBlocks (s : Scan) (column : Option Nat) : Scan :=
  if s.flow then s
  else
    let closed := s.blocks.takeWhile fun block => column.all (· < block)
    { s with
      tokens := closed.map (fun _ => Token.closeBlock) ++ s.tokens
      blocks := s.blocks.drop closed.length }

/-! ## Between tokens -/

/-- Passes over blanks, comments and line ends. Where a key can start in a block a tab is no blank.
-/
def skipGaps : Nat → Scan → Scan
  | 0, s => s
  | fuel + 1, s =>
    match s.place.readBreak? with
    | some (_, place) => skipGaps fuel { s with place, keyAllowed := s.keyAllowed || !s.flow }
    | none =>
      match s.place.rest with
      | ' ' :: _ => skipGaps fuel (s.moveTo (s.place.skip 1))
      | '\t' :: _ =>
        if s.flow || !s.keyAllowed then skipGaps fuel (s.moveTo (s.place.skip 1)) else s
      | '#' :: _ => skipGaps fuel (s.moveTo (s.place.skipWhile (!isBreak ·)))
      | _ => s

/-! ## Marks -/

def mark (s : Scan) (token : Token) (keyAllowed : Bool) : Scan :=
  { s.push token with place := s.place.skip 1, keyAllowed, candidate := none }

def openBrackets (s : Scan) (token : Token) : Scan :=
  let s := s.mayBeKey
  { s.push token with
    place := s.place.skip 1, keyAllowed := true
    candidate := none, outer := s.candidate :: s.outer }

def closeBrackets (s : Scan) (token : Token) : Scan :=
  let s := s.mark token false
  match s.outer with
  | candidate :: outer => { s with candidate, outer }
  | [] => s

def dash? (s : Scan) : Option Scan :=
  if s.flow then some (s.mark .dash true)
  else if !s.keyAllowed then none
  else some ((s.openBlock s.place.column s.tokens.length .openBlockList).mark .dash true)

def key? (s : Scan) : Option Scan :=
  if s.flow then some (s.mark .key false)
  else if !s.keyAllowed then none
  else some ((s.openBlock s.place.column s.tokens.length .openBlockMap).mark .key true)

/-- The key that a colon can belong to: it starts on the same line and is not too long. -/
def keyHere? (s : Scan) : Option Candidate :=
  s.candidate.filter fun candidate =>
    candidate.line = s.place.line && s.place.index ≤ candidate.index + maxKeyLength

def value? (s : Scan) : Option Scan :=
  match s.keyHere? with
  | some candidate =>
    let s := (s.insert candidate.position .key).openBlock candidate.column candidate.position
      .openBlockMap
    some (s.mark .value false)
  | none =>
    if s.flow then some (s.mark .value false)
    else if !s.keyAllowed then none
    else some ((s.openBlock s.place.column s.tokens.length .openBlockMap).mark .value true)

/-! ## Names -/

/-- The name of an anchor or an alias behind its mark. -/
def readName? (text : Text) : Option Text :=
  let name := text.takeWhile isNameChar
  let behind := text.dropWhile isNameChar
  if !name.isEmpty &&
      (startsGap behind || behind.head?.any (· ∈ ['?', ':', ',', ']', '}', '%', '@', '\x60'])) then
    some name
  else none

def isTagChar (c : Char) : Bool := isNameChar c || c ∈ ";/?:@&=+$.!~*'()".toList

/-- Reads the characters of a tag; a percent sign is followed by the digits of a byte, of which only
those of ASCII are read. -/
def readTagChars? (verbatim : Bool) : Text → Option (Text × Text)
  | '%' :: a :: b :: rest => do
    let n ← hexNumber? [a, b]
    if n < 128 then
      (readTagChars? verbatim rest).map fun (text, rest) => (Char.ofNat n :: text, rest)
    else none
  | c :: rest =>
    if isTagChar c || (verbatim && (c == ',' || c == '[' || c == ']')) then
      (readTagChars? verbatim rest).map fun (text, rest) => (c :: text, rest)
    else some ([], c :: rest)
  | [] => some ([], [])

/-- Reads a tag behind its mark: its handle, its suffix, and the rest. -/
def readTag? (text : Text) : Option (Text × Text × Text) :=
  match text with
  | '<' :: rest => do
    let (suffix, rest) ← readTagChars? true rest
    match rest with
    | '>' :: rest => if suffix.isEmpty then none else some ([], suffix, rest)
    | _ => none
  | _ =>
    let name := text.takeWhile isNameChar
    match text.dropWhile isNameChar with
    | '!' :: rest => do
      let (suffix, rest) ← readTagChars? false rest
      if suffix.isEmpty then none else some ('!' :: name ++ ['!'], suffix, rest)
    | _ => do
      let (suffix, rest) ← readTagChars? false text
      if suffix.isEmpty then some ([], ['!'], rest) else some (['!'], suffix, rest)

def name? (s : Scan) (token : Text → Token) : Option Scan := do
  let name ← readName? s.place.rest.tail
  let s := s.mayBeKey
  return { s.push (token name) with
    place := s.place.skip (name.length + 1), keyAllowed := false }

def tag? (s : Scan) : Option Scan := do
  let (handle, suffix, behind) ← readTag? s.place.rest.tail
  if !(startsGap behind || (s.flow && behind.head? == some ',')) then none
  else
    let s := s.mayBeKey
    return { s.push (.tag handle suffix) with
      place := s.place.skip (s.place.rest.length - behind.length), keyAllowed := false }

/-! ## Directives -/

/-- The number of a version behind its point, when the version can be read. -/
def isVersion (text : Text) : Bool := text = "1.1".toList || text = "1.2".toList

def directive? : List Text → Option Token
  | name :: parameters =>
    match parameters with
    | [version] => if name = "YAML".toList && isVersion version then some .version else none
    | [handle, start] =>
      let inner := handle.drop 1
      if name = "TAG".toList && handle.head? == some '!' && (inner.dropWhile isNameChar == ['!'] ||
        inner.isEmpty) && (readTagChars? true start).any (fun (_, rest) => rest.isEmpty)
      then some (.tagHandle handle start)
      else none
    | _ => none
  | [] => none

/-- Adds a directive, which takes a line of its own. -/
def addDirective? (s : Scan) : Option Scan := do
  let line := s.place.rest.takeWhile (!isBreak ·)
  let words := (Text.splitOn isSpacing line.tail).filter (!·.isEmpty)
  let token ← directive? (words.takeWhile fun word => word.head? != some '#')
  let s := s.closeBlocks none
  return { s.push token with
    place := (s.place.skip line.length).skipBreak, keyAllowed := false, candidate := none }

/-- Adds the mark of the start or of the end of a document. -/
def rule (s : Scan) (token : Token) : Scan :=
  let s := s.closeBlocks none
  { s.push token with place := s.place.skip 3, keyAllowed := false, candidate := none }

/-! ## Scalars -/

def block? (s : Scan) (folded : Bool) : Option Scan := do
  let (text, place) ← readBlock? folded s.blocks.head? s.place
  return { s.push (.scalar text false) with place, keyAllowed := true, candidate := none }

def quoted? (s : Scan) (quote : Char) : Option Scan := do
  let (text, place) ← readQuoted? quote s.place
  return { s.mayBeKey.push (.scalar text false) with place, keyAllowed := false }

def plain? (s : Scan) : Option Scan := do
  let (text, broken, place) ← readPlain? s.flow s.indent s.place
  return { s.mayBeKey.push (.scalar text true) with place, keyAllowed := broken }

/-! ## Scanning -/

def step? (s : Scan) (c : Char) (rest : Text) : Option Scan :=
  if s.place.column == 0 && c == '%' then s.addDirective?
  else if s.place.isRule '-' then some (s.rule .documentStart)
  else if s.place.isRule '.' then some (s.rule .documentEnd)
  else if c == '[' then some (s.openBrackets .openList)
  else if c == '{' then some (s.openBrackets .openMap)
  else if c == ']' then some (s.closeBrackets .closeList)
  else if c == '}' then some (s.closeBrackets .closeMap)
  else if c == ',' then some (s.mark .comma true)
  else if c == '-' && startsGap rest then s.dash?
  else if c == '?' && (s.flow || startsGap rest) then s.key?
  else if c == ':' && (s.flow || startsGap rest) then s.value?
  else if c == '*' then s.name? .aliasOf
  else if c == '&' then s.name? .anchor
  else if c == '!' then s.tag?
  else if c == '|' && !s.flow then s.block? false
  else if c == '>' && !s.flow then s.block? true
  else if c == '\'' || c == '"' then s.quoted? c
  else if startsPlain s.flow s.place.rest then s.plain?
  else none

def run? : Nat → Scan → Option (List Token)
  | 0, _ => none
  | fuel + 1, s =>
    let s := skipGaps (s.place.rest.length + 1) s
    match s.place.rest with
    | [] => some (s.closeBlocks none).tokens.reverse
    | c :: rest =>
      match (s.closeBlocks (some s.place.column)).step? c rest with
      | some s => run? fuel s
      | none => none

end Scan

/-- The tokens of a stream; nothing if some part of it makes none. -/
def Token.scan? (text : Text) : Option (List Token) :=
  if text.all isPrintable then Scan.run? (text.length + 1) (Scan.start text) else none

end Stencil.Yaml
