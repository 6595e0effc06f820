import Stencil.Text.Basic

/-!
# Places in a YAML stream

A place knows its line and its column, because both decide about nesting, and how many characters
stand before it. A gap is a run of blanks and line ends between two words of a scalar; `Gap.text` is
what it comes to in the value.
-/

namespace Stencil.Yaml

/-! ## Characters -/

def isSpacing (c : Char) : Bool := c == ' ' || c == '\t'

def isBreak (c : Char) : Bool :=
  c == '\n' || c == '\r' || c == '\u0085' || c == '\u2028' || c == '\u2029'

/-- A character that ends a word. -/
def isGap (c : Char) : Bool := isSpacing c || isBreak c

def startsGap (text : Text) : Bool := text.head?.all isGap

/-- A bracket or a comma, which ends a plain scalar within brackets. -/
def isFlowMark (c : Char) : Bool := c ∈ ",[]{}".toList

def isNameChar (c : Char) : Bool := c.isAlphanum || c == '_' || c == '-'

def isPrintable (c : Char) : Bool :=
  c ∈ ['\t', '\n', '\r', '\u0085'] || (' ' ≤ c && c ≤ '~') ||
    ('\u00a0' ≤ c && c ≤ '\ufffd') || 0x10000 ≤ c.toNat

/-! ## Places -/

structure Place where
  rest : Text
  line : Nat
  column : Nat
  /-- The number of characters before it. -/
  index : Nat

namespace Place

def start (text : Text) : Place := ⟨text, 0, 0, 0⟩

/-- The place behind the next `count` characters of the line. -/
def skip (p : Place) (count : Nat) : Place :=
  { p with rest := p.rest.drop count, column := p.column + count, index := p.index + count }

/-- The place behind a run of characters without line ends. -/
def skipWhile (p : Place) (test : Char → Bool) : Place := p.skip (p.rest.takeWhile test).length

def nextLine (p : Place) (rest : Text) : Place := ⟨rest, p.line + 1, 0, p.index + 1⟩

/-- The line end that stands here, in its usual form, and the place behind it. -/
def readBreak? (p : Place) : Option (Char × Place) :=
  match p.rest with
  | '\r' :: '\n' :: rest => some ('\n', p.nextLine rest)
  | c :: rest =>
    if c == '\u2028' || c == '\u2029' then some (c, p.nextLine rest)
    else if isBreak c then some ('\n', p.nextLine rest)
    else none
  | [] => none

def skipBreak (p : Place) : Place := (p.readBreak?.map Prod.snd).getD p

/-- Three dashes or three points stand alone at the start of a line. -/
def isRule (p : Place) (mark : Char) : Bool :=
  p.column == 0 &&
    match Text.dropStart? [mark, mark, mark] p.rest with
    | some rest => startsGap rest
    | none => false

def atRule (p : Place) : Bool := p.isRule '-' || p.isRule '.'

end Place

/-! ## Gaps -/

/-- Blanks and line ends between two words. -/
structure Gap where
  /-- The blanks before the first line end. -/
  blanks : Text
  /-- There is a line end. -/
  broken : Bool
  /-- The first line end, unless it does not count. -/
  first : Text
  /-- The other line ends. -/
  more : Text

namespace Gap

def none : Gap := ⟨[], false, [], []⟩

/-- The gap behind a line end that does not count. -/
def hidden : Gap := ⟨[], true, [], []⟩

/-- What a gap comes to: one line end is a space, of several the first is dropped. -/
def text (g : Gap) : Text :=
  if !g.broken then g.blanks
  else if g.first = ['\n'] then (if g.more.isEmpty then [' '] else g.more)
  else g.first ++ g.more

def addBlank (g : Gap) (c : Char) : Gap :=
  if g.broken then g else { g with blanks := g.blanks ++ [c] }

def addBreak (g : Gap) (c : Char) : Gap :=
  if g.broken then { g with more := g.more ++ [c] } else ⟨[], true, [c], []⟩

/-- Reads blanks and line ends. A tab at the start of a line that is left of `indent` is an error.
-/
def readFrom? (indent : Nat) : Nat → Gap → Place → Option (Gap × Place)
  | 0, _, _ => .none
  | fuel + 1, g, p =>
    match p.readBreak? with
    | some (c, next) => readFrom? indent fuel (g.addBreak c) next
    | .none =>
      match p.rest with
      | c :: _ =>
        if !isSpacing c then some (g, p)
        else if c == '\t' && g.broken && p.column < indent then .none
        else readFrom? indent fuel (g.addBlank c) (p.skip 1)
      | [] => some (g, p)

def read? (indent : Nat) (g : Gap) (p : Place) : Option (Gap × Place) :=
  readFrom? indent (p.rest.length + 1) g p

end Gap

end Stencil.Yaml
