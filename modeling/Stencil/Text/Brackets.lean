import Stencil.Text.Basic

/-!
# Brackets and quotes

A reader of expressions that only keeps count: how many brackets are open, and whether the place is
inside a quoted string. One counter serves the three kinds of brackets, so `(a]` is as closed as
`(a)`. Inside a string a backslash shields the character after it.

* `Scan.step` reads one character.
* `splitTopLevel` cuts a text at separators that stand outside brackets and strings.
-/

namespace Stencil

/-- Where a left-to-right reading stands. -/
inductive Scan
  /-- Outside strings, with `depth` brackets open. -/
  | plain (depth : Nat)
  /-- Inside a string that `mark` opened. -/
  | quoted (depth : Nat) (mark : Char)
  /-- Inside a string, right after a backslash. -/
  | escaped (depth : Nat) (mark : Char)
  deriving DecidableEq, Repr

namespace Scan

abbrev start : Scan := .plain 0

def isQuote (c : Char) : Bool := c == '\'' || c == '"'

def isOpener (c : Char) : Bool := c == '(' || c == '[' || c == '{'

def isCloser (c : Char) : Bool := c == ')' || c == ']' || c == '}'

/-- Reads one character. A closing bracket with nothing open changes nothing. -/
def step : Scan → Char → Scan
  | .plain depth, c =>
    if isQuote c then .quoted depth c
    else if isOpener c then .plain (depth + 1)
    else if isCloser c then .plain (depth - 1)
    else .plain depth
  | .quoted depth mark, c =>
    if c == '\\' then .escaped depth mark
    else if c == mark then .plain depth
    else .quoted depth mark
  | .escaped depth mark, _ => .quoted depth mark

def run (scan : Scan) (text : Text) : Scan := text.foldl step scan

/-- A closing bracket that closes nothing. -/
def stray (scan : Scan) (c : Char) : Bool := scan == .plain 0 && isCloser c

/-- A listed character that separates: it stands outside brackets and strings and opens neither. A
closing bracket may be listed; it then separates where it closes nothing. -/
def separates (separators : Text) (scan : Scan) (c : Char) : Bool :=
  scan == .plain 0 && !isQuote c && !isOpener c && separators.contains c

/-- The parts between the separators of a text that is read from `scan` on. -/
def split (separators : Text) : Scan → Text → List Text
  | _, [] => [[]]
  | scan, c :: rest =>
    if scan.separates separators c then [] :: split separators (scan.step c) rest
    else Text.consFirst c (split separators (scan.step c) rest)

end Scan

/-- The parts of a text between the separators that stand outside brackets and strings. -/
def Text.splitTopLevel (separators text : Text) : List Text := Scan.split separators .start text

/-- Call arguments: the parts between top-level commas, without a blank last part. -/
def Text.arguments (text : Text) : List Text :=
  let parts := Text.splitTopLevel [','] text
  match parts.getLast? with
  | some last => if last.trim.isEmpty then parts.dropLast else parts
  | none => parts

end Stencil
