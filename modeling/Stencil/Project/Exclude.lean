import Stencil.Text.Basic

/-!
# Exclude patterns

Patterns of paths that are left out, one rule after the other. A rule without a slash inside matches
at any depth, one that ends with a slash matches directories only, and one that starts with an
exclamation mark takes paths back in. Of the rules that match a path the last one decides.

In a rule a question mark stands for one byte and a star for any number, neither for a slash; two
stars between slashes stand for any number of directories; brackets hold a class of bytes and braces
alternatives; a backslash takes the next character as it is.

* `Glob.parse` reads the glob of a rule, `Glob.accepts` matches it with a path.
* `ExcludeRule.parse?` reads a rule, `isExcluded` decides about a path.
* `ExcludeRule.matcher` is the `Matcher` that some patterns stand for.
-/

namespace Stencil

namespace Glob

structure ByteRange where
  first : UInt8
  last : UInt8
  deriving DecidableEq, Repr

inductive Part
  | literal (bytes : List UInt8)
  /-- One byte that is no slash. -/
  | any
  /-- Any number of bytes that are no slashes. -/
  | run
  /-- Any number of directories at the start. -/
  | leading
  /-- Everything below a directory. -/
  | trailing
  /-- Any number of directories in the middle. -/
  | between
  | oneOf (negated : Bool) (ranges : List ByteRange)
  | alternatives (branches : List (List Part))
  deriving Repr

/-! ## Matching -/

def slash : UInt8 := 47

/-- Goes on behind any number of bytes of `p`. -/
def afterRun (p : UInt8 → Bool) (next : List UInt8 → Bool) : List UInt8 → Bool
  | [] => next []
  | byte :: rest => next (byte :: rest) || (p byte && afterRun p next rest)

/-- Goes on behind the first byte, if it is one of `p`. -/
def afterOne (p : UInt8 → Bool) (next : List UInt8 → Bool) : List UInt8 → Bool
  | [] => false
  | byte :: rest => p byte && next rest

/-- Goes on behind a slash and any number of bytes that end with a slash. -/
def afterDirectories (next : List UInt8 → Bool) : List UInt8 → Bool :=
  afterRun (fun _ => true) (afterOne (· == slash) next)

mutual

def matchPart (part : Part) (next : List UInt8 → Bool) (bytes : List UInt8) : Bool :=
  match part with
  | .literal literal =>
    match literal.isPrefixOf? bytes with
    | some rest => next rest
    | none => false
  | .any => afterOne (· != slash) next bytes
  | .run => afterRun (· != slash) next bytes
  | .leading => next bytes || afterDirectories next bytes
  | .trailing => afterOne (· == slash) (afterRun (fun _ => true) next) bytes
  | .between =>
    afterOne (· == slash) (fun rest => next rest || afterDirectories next rest) bytes
  | .oneOf negated ranges =>
    afterOne (fun byte =>
      (ranges.any fun range => range.first ≤ byte && byte ≤ range.last) != negated) next bytes
  | .alternatives [] => next bytes
  | .alternatives (branch :: branches) =>
    matchParts branch next bytes || matchAny branches next bytes

def matchParts (parts : List Part) (next : List UInt8 → Bool) (bytes : List UInt8) : Bool :=
  match parts with
  | [] => next bytes
  | part :: parts => matchPart part (matchParts parts next) bytes

/-- Matches one of several branches and goes on behind it. -/
def matchAny (branches : List (List Part)) (next : List UInt8 → Bool) (bytes : List UInt8) : Bool :=
  match branches with
  | [] => false
  | branch :: branches => matchParts branch next bytes || matchAny branches next bytes

end

/-- A glob matches a whole path. Two stars alone match every path. -/
def accepts (parts : List Part) (path : List UInt8) : Bool :=
  match parts with
  | [.leading] => true
  | parts => matchParts parts List.isEmpty path

/-! ## Reading -/

def charBytes (c : Char) : List UInt8 := String.utf8EncodeChar c

/-- The ranges of bytes that a range of characters covers: it runs from the last byte of the first
character to the first byte of the last. -/
def byteRanges? (first last : Char) : Option (List ByteRange) :=
  let single (byte : UInt8) : ByteRange := ⟨byte, byte⟩
  let firsts := charBytes first
  let lasts := charBytes last
  if first = last then some (firsts.map single)
  else
    match firsts.getLast?, lasts.head? with
    | some low, some high =>
      if low ≤ high then
        some (firsts.dropLast.map single ++ ⟨low, high⟩ :: lasts.tail.map single)
      else none
    | _, _ => none

/-- What the reading of a class comes to. -/
inductive ClassReading
  | complete (ranges : List (Char × Char)) (rest : Text)
  | unclosed
  | invalid

/-- Reads a class up to its closing bracket. `ranges` are those so far, the last one first;
`waiting` tells that a range lacks its last character. -/
def readClass (ranges : List (Char × Char)) (isFirst waiting : Bool) : Text → ClassReading
  | [] => .unclosed
  | c :: rest =>
    if c == ']' && !isFirst then
      .complete (if waiting then ('-', '-') :: ranges else ranges).reverse rest
    else if c == '-' && !isFirst && !waiting then readClass ranges false true rest
    else if waiting then
      match ranges with
      | (first, _) :: others =>
        if first ≤ c then readClass ((first, c) :: others) false false rest else .invalid
      | [] => .invalid
    else readClass ((c, c) :: ranges) false false rest

/-- The branches of an alternation that is being read, the current one first; the parts of the
current one stand last to first. -/
abbrev Branches := List (List Part)

/-- A glob that is being read: the alternations that are open, the innermost first. -/
structure Reading where
  /-- What the glob holds outside alternations, or the innermost alternation. -/
  current : Branches
  enclosing : List Branches
  /-- A bracket without an end has been met, so brackets are characters. -/
  plainBrackets : Bool

namespace Reading

def start : Reading := ⟨[[]], [], false⟩

/-- The parts of the current branch, the last one first. -/
def parts (r : Reading) : List Part := r.current.headD []

def withParts (r : Reading) (parts : List Part) : Reading :=
  { r with current := parts :: r.current.tail }

def push (r : Reading) (part : Part) : Reading := r.withParts (part :: r.parts)

def isBlankBranch (branch : List Part) : Bool :=
  branch.all fun part => match part with | .alternatives [] => true | _ => false

def openBranches (r : Reading) : Reading :=
  { r with current := [[]], enclosing := r.current :: r.enclosing }

/-- Closes the innermost alternation; empty branches are left out. -/
def closeBranches? (r : Reading) : Option Reading :=
  match r.enclosing with
  | [] => none
  | outer :: enclosing =>
    let branches := (r.current.reverse.map List.reverse).filter (!isBlankBranch ·)
    some ({ r with current := outer, enclosing }.push (.alternatives branches))

/-- Puts a part in the place of the slash before it, unless directories stand there already. -/
def replaceLast (r : Reading) (part : Part) : Reading :=
  match r.parts with
  | .leading :: parts => r.withParts (.leading :: parts)
  | .trailing :: parts => r.withParts (.trailing :: parts)
  | _ :: parts => r.withParts (part :: parts)
  | [] => r

/-- Reads two stars, given the character before them and the text behind them. -/
def readStars (r : Reading) (earlier : Option Char) (text : Text) : Reading × Text :=
  let plain := ((r.push .run).push .run, text)
  let inside := !r.enclosing.isEmpty
  if r.parts.isEmpty then
    match text with
    | [] => (r.push .leading, [])
    | '/' :: rest => (r.push .leading, rest)
    | _ => plain
  else if earlier != some '/' && !(inside && (earlier == some ',' || earlier == some '{')) then
    plain
  else
    match text with
    | [] => (r.replaceLast .trailing, [])
    | '/' :: rest => (r.replaceLast .between, rest)
    | c :: _ =>
      if inside && (c == ',' || c == '}') then (r.replaceLast .trailing, text) else plain

/-- Reads one part of a glob; nothing when it is malformed. -/
def step? (r : Reading) (earlier : Option Char) (c : Char) (rest : Text) :
    Option (Reading × Text) :=
  if c == '?' then some (r.push .any, rest)
  else if c == '*' then
    match rest with
    | '*' :: rest => some (r.readStars earlier rest)
    | rest => some (r.push .run, rest)
  else if c == '[' && !r.plainBrackets then
    let negated := rest.head? == some '!' || rest.head? == some '^'
    match readClass [] true false (if negated then rest.tail else rest) with
    | .complete ranges rest => do
      let ranges ← ranges.mapM fun (first, last) => byteRanges? first last
      return (r.push (.oneOf negated ranges.flatten), rest)
    | .unclosed => some ({ r with plainBrackets := true }.push (.literal (charBytes '[')), rest)
    | .invalid => none
  else if c == '{' then some (r.openBranches, rest)
  else if c == '}' then r.closeBranches?.map fun r => (r, rest)
  else if c == ',' && !r.enclosing.isEmpty then
    some ({ r with current := [] :: r.current }, rest)
  else if c == '\\' then
    match rest with
    | [] => none
    | c :: rest => some (r.push (.literal (charBytes c)), rest)
  else some (r.push (.literal (charBytes c)), rest)

end Reading

/-- Reads the parts of a glob; each takes at least one character. -/
def readParts? : Nat → Reading → Option Char → Text → Option Reading
  | _, r, _, [] => some r
  | 0, _, _, _ :: _ => none
  | fuel + 1, r, earlier, c :: rest => do
    let (r, left) ← r.step? earlier c rest
    readParts? fuel r ((c :: rest).take (rest.length + 1 - left.length)).getLast? left

def parse? (source : Text) : Option (List Part) := do
  let r ← readParts? source.length .start none source
  if r.enclosing.isEmpty then some r.parts.reverse else none

end Glob

structure ExcludeRule where
  glob : List Glob.Part
  /-- The rule takes paths back in. -/
  readmits : Bool
  onlyDirectories : Bool
  deriving Repr

namespace ExcludeRule

/-- The glob of a rule without its marks: one without a slash matches at any depth, and one for
everything below a directory does not match the directory. -/
def globSource (anchored : Bool) (body : Text) : Text :=
  let anywhere := !anchored && !body.contains '/' && body ≠ "**".toList
  let source := if anywhere then "**/".toList ++ body else body
  if ("/**".toList).isSuffixOf source then source ++ "/*".toList else source

/-- Reads a rule. The answer is nothing when its glob is malformed, and no rule when the line is
blank or a comment. -/
def parse? (line : Text) : Option (Option ExcludeRule) :=
  if line.head? == some '#' then some none
  else
    let line := if ("\\ ".toList).isSuffixOf line then line else line.trimEnd
    if line.isEmpty then some none
    else
      let (readmits, anchored, body) :=
        match line with
        | '\\' :: '!' :: rest => (false, false, '!' :: rest)
        | '\\' :: '#' :: rest => (false, false, '#' :: rest)
        | '!' :: '/' :: rest => (true, true, rest)
        | '!' :: rest => (true, false, rest)
        | '/' :: rest => (false, true, rest)
        | rest => (false, false, rest)
      let (onlyDirectories, body) :=
        match Text.dropEnd? ['/'] body with
        | some body => (true, (Text.dropEnd? ['\\'] body).getD body)
        | none => (false, body)
      (Glob.parse? (globSource anchored body)).map fun glob =>
        some ⟨glob, readmits, onlyDirectories⟩

/-- Reads rules; the first malformed one when there is one. -/
def parseAll (lines : List Text) : Except Text (List ExcludeRule) :=
  match lines with
  | [] => .ok []
  | line :: lines =>
    match parse? line with
    | none => .error line
    | some none => parseAll lines
    | some (some rule) => (parseAll lines).map (rule :: ·)

def appliesTo (rule : ExcludeRule) (path : Text) (isDirectory : Bool) : Bool :=
  (isDirectory || !rule.onlyDirectories) && Glob.accepts rule.glob (path.flatMap Glob.charBytes)

end ExcludeRule

/-- The rules leave a path out: the last one that speaks about it does. -/
def isExcluded (rules : List ExcludeRule) (path : Text) (isDirectory : Bool) : Bool :=
  match (rules.filter fun rule => rule.appliesTo path isDirectory).getLast? with
  | some rule => !rule.readmits
  | none => false

/-- Tells of a path whether it is left out; the flag says that it is the path of a directory. -/
abbrev Matcher := Text → Bool → Bool

def ExcludeRule.matcher (patterns : List Text) : Except Text Matcher :=
  (parseAll patterns).map isExcluded

end Stencil
