import Stencil.Data.Json
import Stencil.Data.Yaml.Place

/-!
# The texts of YAML scalars

How plain scalars, quoted scalars and block scalars are read from their place in a stream. Each
reader answers the text of the scalar and the place behind it, or nothing if there is no scalar of
its kind.
-/

namespace Stencil.Yaml

/-! ## Plain scalars -/

def startsPlain (flow : Bool) : Text → Bool
  | [] => false
  | c :: rest =>
    if c == '-' then !rest.head?.all isSpacing
    else if c == '?' || c == ':' then !flow && !startsGap rest
    else !isGap c && !isFlowMark c && !(c ∈ "#&*!|>'\"%@\x60".toList)

/-- Takes a word of a plain scalar. A colon in front of a gap ends it; within brackets a colon in
front of a mark is an error. -/
def takeWord? (flow : Bool) : Text → Option Text
  | [] => some []
  | c :: rest =>
    if isGap c then some []
    else if flow && c == ':' && rest.head?.any (fun d => d == '?' || isFlowMark d) then none
    else if c == ':' && startsGap rest then some []
    else if flow && isFlowMark c then some []
    else (takeWord? flow rest).map (c :: ·)

/-- Reads the words of a plain scalar behind the gap `g`. Also answers the gap behind the last word.
A line that is left of `indent` does not belong to the scalar. -/
def readWords? (flow : Bool) (indent : Nat) : Nat → Gap → Place → Option (Text × Gap × Place)
  | 0, _, _ => none
  | fuel + 1, g, p =>
    if p.atRule || p.rest.head? == some '#' then some ([], g, p)
    else do
      let word ← takeWord? flow p.rest
      if word.isEmpty then some ([], g, p)
      else
        let before := g.text ++ word
        let (g, p) ← Gap.none.read? indent (p.skip word.length)
        if g.broken && !flow && p.column < indent then some (before, g, p)
        else if g.blanks.isEmpty && !g.broken then some (before, g, p)
        else
          let (text, g, p) ← readWords? flow indent fuel g p
          return (before ++ text, g, p)

/-- Reads a plain scalar. Also tells whether a line end stands behind it. -/
def readPlain? (flow : Bool) (indent : Nat) (p : Place) : Option (Text × Bool × Place) :=
  (readWords? flow indent (p.rest.length + 1) .none p).map fun (text, g, p) => (text, g.broken, p)

/-! ## Quoted scalars -/

def hexNumber? (digits : Text) : Option Nat :=
  digits.foldlM (fun n c => (Json.hexValue? c).map (16 * n + ·)) 0

def codePoint? (count : Nat) (digits : Text) : Option Char := do
  let n ← hexNumber? digits
  if digits.length = count ∧ (n < 0xd800 ∨ (0xdfff < n ∧ n < 0x110000)) then some (Char.ofNat n)
  else none

/-- The character that a letter after a backslash stands for. -/
def escaped? : Char → Option Char
  | '0' => some '\x00'
  | 'a' => some '\x07'
  | 'b' => some '\x08'
  | 't' | '\t' => some '\t'
  | 'n' => some '\n'
  | 'v' => some '\x0b'
  | 'f' => some '\x0c'
  | 'r' => some '\r'
  | 'e' => some '\x1b'
  | ' ' => some ' '
  | '"' => some '"'
  | '/' => some '/'
  | '\\' => some '\\'
  | 'N' => some '\u0085'
  | '_' => some '\u00a0'
  | 'L' => some '\u2028'
  | 'P' => some '\u2029'
  | _ => none

/-- The number of hexadecimal digits behind a letter after a backslash. -/
def hexDigits? : Char → Option Nat
  | 'x' => some 2
  | 'u' => some 4
  | 'U' => some 8
  | _ => none

/-- Reads what stands behind a backslash: a character and the number of characters it takes. -/
def readEscape? : Text → Option (Char × Nat)
  | [] => none
  | letter :: rest =>
    match hexDigits? letter with
    | some count => (codePoint? count (rest.take count)).map fun c => (c, count + 1)
    | none => (escaped? letter).map fun c => (c, 1)

def readQuotedFrom? (quote : Char) : Nat → Place → Option (Text × Place)
  | 0, _ => none
  | fuel + 1, p =>
    match p.rest with
    | [] => none
    | first :: rest =>
      if p.atRule then none
      else if isGap first then do
        let (g, p) ← Gap.none.read? 0 p
        let (text, p) ← readQuotedFrom? quote fuel p
        return (g.text ++ text, p)
      else if first == quote then
        if quote == '\'' && rest.head? == some '\'' then
          (readQuotedFrom? quote fuel (p.skip 2)).map fun (text, p) => (quote :: text, p)
        else some ([], p.skip 1)
      else if quote == '"' && first == '\\' then
        if rest.head?.any isBreak then do
          let (g, p) ← Gap.hidden.read? 0 (p.skip 1).skipBreak
          let (text, p) ← readQuotedFrom? quote fuel p
          return (g.text ++ text, p)
        else do
          let (decoded, count) ← readEscape? rest
          let (text, p) ← readQuotedFrom? quote fuel (p.skip (count + 1))
          return (decoded :: text, p)
      else (readQuotedFrom? quote fuel (p.skip 1)).map fun (text, p) => (first :: text, p)

def readQuoted? (quote : Char) (p : Place) : Option (Text × Place) :=
  readQuotedFrom? quote (p.rest.length + 1) (p.skip 1)

/-! ## Block scalars -/

/-- What happens to the line ends at the end of a block scalar. -/
inductive Chomping
  | strip
  | clip
  | keep
  deriving DecidableEq, Repr

structure BlockHeader where
  chomping : Chomping
  /-- The indentation beyond the surrounding block, if it is given. -/
  indent : Option Nat

def readChomping (p : Place) : Option Chomping × Place :=
  match p.rest with
  | '-' :: _ => (some .strip, p.skip 1)
  | '+' :: _ => (some .keep, p.skip 1)
  | _ => (none, p)

/-- Reads a digit of indentation, which is not zero. -/
def readIndent? (p : Place) : Option (Option Nat × Place) :=
  match p.rest with
  | c :: _ =>
    if !Text.isDigit c then some (none, p)
    else if c == '0' then none
    else some (some (Text.digitValue c), p.skip 1)
  | [] => some (none, p)

/-- Reads the marks of a block scalar, in either order, and the end of their line. -/
def readHeader? (p : Place) : Option (BlockHeader × Place) := do
  let (before, p) := readChomping p
  let (indent, p) ← readIndent? p
  let (behind, p) := if before.isNone && indent.isSome then readChomping p else (none, p)
  let p := p.skipWhile isSpacing
  let p := if p.rest.head? == some '#' then p.skipWhile (!isBreak ·) else p
  if p.rest.head?.all isBreak then some (⟨(before.or behind).getD .clip, indent⟩, p.skipBreak)
  else none

/-- Passes over empty lines and the indentation of the next line, up to `indent` if it is known.
Answers the line ends, the indentation of the longest line, and the place. A tab in the indentation
is an error. -/
def skipIndents? (indent : Option Nat) : Nat → Nat → Place → Option (Text × Nat × Place)
  | 0, _, _ => none
  | fuel + 1, longest, p =>
    let spaces := (p.rest.takeWhile (· == ' ')).length
    let p := p.skip (indent.elim spaces fun indent => min spaces (indent - p.column))
    let longest := max longest p.column
    if p.rest.head? == some '\t' && indent.all (p.column < ·) then none
    else
      match p.readBreak? with
      | some (c, p) =>
        (skipIndents? indent fuel longest p).map fun (breaks, longest, p) =>
          (c :: breaks, longest, p)
      | none => some ([], longest, p)

/-- Reads the lines of a block scalar from a place at their indentation. `first` is the end of the
line before, `empty` the ends of the empty lines behind it, and `indented` tells that it starts with
a blank. Answers the text, the end of the last line and the ends of the empty lines behind it. -/
def readLines? (folded : Bool) (indent : Nat) :
    Nat → Text → Text → Bool → Place → Option (Text × Text × Text × Place)
  | 0, _, _, _, _ => none
  | fuel + 1, first, empty, indented, p =>
    if p.column != indent || p.rest.isEmpty then some ([], first, empty, p)
    else do
      let blank := p.rest.head?.any isSpacing
      let joined :=
        if folded && first = ['\n'] && !indented && !blank then
          (if empty.isEmpty then [' '] else [])
        else first
      let line := p.rest.takeWhile (!isBreak ·)
      let p := p.skip line.length
      let (first, p) := match p.readBreak? with | some (c, p) => ([c], p) | none => ([], p)
      let (behind, _, p) ← skipIndents? (some indent) (p.rest.length + 1) 0 p
      let (text, last) ← readLines? folded indent fuel first behind blank p
      return (joined ++ empty ++ line ++ text, last)

/-- Reads a block scalar. The block around it is indented by `outer`, which is none at the top. -/
def readBlock? (folded : Bool) (outer : Option Nat) (p : Place) : Option (Text × Place) := do
  let (header, p) ← readHeader? (p.skip 1)
  let given := header.indent.map (outer.getD 0 + ·)
  let (empty, longest, p) ← skipIndents? given (p.rest.length + 1) 0 p
  let indent := given.getD (max longest (outer.elim 1 (· + 1)))
  let (text, first, empty, p) ← readLines? folded indent (p.rest.length + 1) [] empty false p
  match header.chomping with
  | .strip => return (text, p)
  | .clip => return (text ++ first, p)
  | .keep => return (text ++ first ++ empty, p)

end Stencil.Yaml
