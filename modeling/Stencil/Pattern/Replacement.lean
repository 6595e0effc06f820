import Stencil.Number.Power
import Stencil.Pattern.Match

/-!
# Replacements

A replacement is the text that takes the place of a match. A dollar sign before a number stands for
the text of that capture, and for the whole match when the number is zero; any other dollar sign is
text.

`Pattern.replaceAll` walks over a text once: where the pattern matches it writes the replacement and
goes on behind the match, elsewhere it copies a character. Behind an empty match one character is
copied before the pattern is tried again.
-/

namespace Stencil

inductive Piece
  | char (c : Char)
  | capture (index : Nat)
  deriving DecidableEq, Repr

/-- The text that takes the place of a match. -/
abbrev Replacement := List Piece

namespace Replacement

/-! ## Source form -/

/-- The greatest capture number; a greater one in a source form counts as this one. -/
def maxIndex : Nat := Number.twoTo 64 - 1

/-- Where the reading of a source form stands. -/
inductive Reading
  | text
  /-- Right after a dollar sign. -/
  | dollar
  /-- After a dollar sign and the digits of `number`. -/
  | reference (number : Nat)

/-- Reads a character outside a reference, with `read` for what follows it. -/
def readPlain (read : Reading → Replacement) (c : Char) : Replacement :=
  if c = '$' then read .dollar else .char c :: read .text

def readFrom : Reading → Text → Replacement
  | .text, [] => []
  | .dollar, [] => [.char '$']
  | .reference number, [] => [.capture (min number maxIndex)]
  | .text, c :: rest => readPlain (readFrom · rest) c
  | .dollar, c :: rest =>
    if Text.isDigit c then readFrom (.reference (Text.digitValue c)) rest
    else .char '$' :: readPlain (readFrom · rest) c
  | .reference number, c :: rest =>
    if Text.isDigit c then readFrom (.reference (10 * number + Text.digitValue c)) rest
    else .capture (min number maxIndex) :: readPlain (readFrom · rest) c

def parse (source : Text) : Replacement := readFrom .text source

/-- The greatest capture number that is used, zero when none is. -/
def highest (r : Replacement) : Nat :=
  r.foldr (fun piece top => match piece with | .capture index => max index top | .char _ => top) 0

/-! ## Expansion -/

/-- The text of one element for a match; a capture that the match does not have is empty. -/
def expandPiece (whole : Text) (captures : List Text) : Piece → Text
  | .char c => [c]
  | .capture 0 => whole
  | .capture (index + 1) => captures[index]?.getD []

def expand (r : Replacement) (whole : Text) (captures : List Text) : Text :=
  r.flatMap (expandPiece whole captures)

end Replacement

namespace Pattern

/-- Replaces the matches in a text whose first `skip` characters belong to the match before. -/
def replaceFrom (p : Pattern) (r : Replacement) : Nat → Option Char → Text → Text
  | 0, earlier, [] =>
    match matchSlices p.segments earlier [] with
    | some slices => r.expand slices.flatten (captureSlices p.segments slices)
    | none => []
  | _ + 1, _, [] => []
  | skip + 1, _, c :: rest => p.replaceFrom r skip (some c) rest
  | 0, earlier, c :: rest =>
    match matchSlices p.segments earlier (c :: rest) with
    | some slices =>
      r.expand slices.flatten (captureSlices p.segments slices) ++
        match slices.flatten.length with
        | 0 => c :: p.replaceFrom r 0 (some c) rest
        | skip + 1 => p.replaceFrom r skip (some c) rest
    | none => c :: p.replaceFrom r 0 (some c) rest

/-- Replaces every match, from left to right without overlaps. -/
def replaceAll (p : Pattern) (r : Replacement) (text : Text) : Text := p.replaceFrom r 0 none text

end Pattern

end Stencil
