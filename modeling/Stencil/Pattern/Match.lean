import Stencil.Pattern.Basic
import Stencil.Text.Brackets

/-!
# Matching

A match cuts the text after a place into one slice per segment and a rest. Every segment has an
order in which it offers its slices, and the first offer with which the remaining segments match is
taken: `blanks`, `lineBreaks` and `long` offer the longest slice first, the other captures the
shortest.

* `Segment.Admits` says which slices a segment accepts.
* `matchSlices` finds the slices at a place, `Pattern.find` the leftmost place with a match.
* `Pattern.matchAt` and `Pattern.findAt` speak of places as byte offsets.
-/

namespace Stencil

namespace Segment

/-! ## Slices -/

/-- Reads one more character of the slice of a slot; nothing when the slice cannot go on with it. -/
def extend (segment : Segment) (scan : Scan) (c : Char) : Option Scan :=
  match segment with
  | .literal _ | .lineStart => none
  | .blanks => if Text.isBlank c then some scan else none
  | .lineBreaks => if c == '\r' || c == '\n' then some scan else none
  | .capture .short | .capture .long => if c == '\n' then none else some scan
  | .capture .shortAcrossLines => some scan
  | .capture .balanced => if c == '\n' || scan.stray c then none else some (scan.step c)

def mayEnd (segment : Segment) (scan : Scan) (taken : Text) : Bool :=
  match segment with
  | .lineBreaks => !taken.isEmpty
  | .capture .balanced => scan == .plain 0
  | _ => true

def prefersLong : Segment → Bool
  | .blanks | .lineBreaks | .capture .long => true
  | _ => false

/-- A slice that the segment accepts; `earlier` is the character before it. -/
def Admits (segment : Segment) (earlier : Option Char) (slice : Text) : Prop :=
  match segment with
  | .literal text => slice = text
  | .lineStart => slice = [] ∧ (earlier = none ∨ earlier = some '\n')
  | .blanks => ∀ c ∈ slice, Text.isBlank c = true
  | .lineBreaks => slice ≠ [] ∧ ∀ c ∈ slice, c = '\r' ∨ c = '\n'
  | .capture .short | .capture .long => '\n' ∉ slice
  | .capture .shortAcrossLines => True
  | .capture .balanced =>
    '\n' ∉ slice ∧ Scan.start.run slice = .plain 0 ∧
      ∀ done c more, slice = done ++ c :: more → (Scan.start.run done).stray c = false

end Segment

/-! ## Search at a place -/

/-- Offers the slices of a slot that extend `taken` (its last character first), the shortest first,
and goes on with `next` behind each. -/
def offerShortest (segment : Segment) (next : Option Char → Text → Option (List Text))
    (earlier : Option Char) (scan : Scan) (taken : Text) : Text → Option (List Text)
  | [] =>
    if segment.mayEnd scan taken then
      (next (taken.head?.or earlier) []).map (taken.reverse :: ·)
    else none
  | c :: rest =>
    (if segment.mayEnd scan taken then
      (next (taken.head?.or earlier) (c :: rest)).map (taken.reverse :: ·)
    else none) <|>
      match segment.extend scan c with
      | some scan => offerShortest segment next earlier scan (c :: taken) rest
      | none => none

/-- Offers the slices of a slot that extend `taken` (its last character first), the longest first,
and goes on with `next` behind each. -/
def offerLongest (segment : Segment) (next : Option Char → Text → Option (List Text))
    (earlier : Option Char) (scan : Scan) (taken : Text) : Text → Option (List Text)
  | [] =>
    if segment.mayEnd scan taken then
      (next (taken.head?.or earlier) []).map (taken.reverse :: ·)
    else none
  | c :: rest =>
    (match segment.extend scan c with
      | some scan => offerLongest segment next earlier scan (c :: taken) rest
      | none => none) <|>
      if segment.mayEnd scan taken then
        (next (taken.head?.or earlier) (c :: rest)).map (taken.reverse :: ·)
      else none

/-- The slices of the segments at a place; `earlier` is the character before it. -/
def matchSlices : List Segment → Option Char → Text → Option (List Text)
  | [], _, _ => some []
  | .literal text :: segments, earlier, after =>
    match Text.dropStart? text after with
    | some rest => (matchSlices segments (Text.lastOr earlier text) rest).map (text :: ·)
    | none => none
  | .lineStart :: segments, earlier, after =>
    if earlier = none ∨ earlier = some '\n' then
      (matchSlices segments earlier after).map ([] :: ·)
    else none
  | segment :: segments, earlier, after =>
    if segment.prefersLong then
      offerLongest segment (matchSlices segments) earlier .start [] after
    else offerShortest segment (matchSlices segments) earlier .start [] after

def captureSlices : List Segment → List Text → List Text
  | segment :: segments, slice :: slices =>
    if segment.isCapture then slice :: captureSlices segments slices
    else captureSlices segments slices
  | _, _ => []

/-! ## Search in a text -/

/-- A text cut around a match. -/
structure Found where
  before : Text
  slices : List Text
  after : Text
  deriving DecidableEq, Repr

namespace Found

def whole (found : Found) : Text := found.slices.flatten

/-- The same match in a text with one more character in front. -/
def consBefore (c : Char) (found : Found) : Found := { found with before := c :: found.before }

end Found

namespace Pattern

/-- A pattern that opens with literal text can match only where that text stands. -/
def opensAt (p : Pattern) (text : Text) : Bool :=
  match p.segments with
  | .literal opening :: _ => opening.isPrefixOf text
  | _ => true

def matchHere (p : Pattern) (earlier : Option Char) (text : Text) : Option Found :=
  (matchSlices p.segments earlier text).map fun slices =>
    ⟨[], slices, text.drop slices.flatten.length⟩

/-- The leftmost match. Places where the opening literal does not stand are passed over without
trying the pattern. -/
def find (p : Pattern) (earlier : Option Char) : Text → Option Found
  | [] => if p.opensAt [] then p.matchHere earlier [] else none
  | c :: rest =>
    (if p.opensAt (c :: rest) then p.matchHere earlier (c :: rest) else none) <|>
      (p.find (some c) rest).map (Found.consBefore c)

end Pattern

/-! ## Byte offsets -/

/-- A part of a text from one byte offset to another. -/
structure Span where
  start : Nat
  stop : Nat
  deriving DecidableEq, Repr

/-- The spans of slices that follow one another from an offset on. -/
def spansFrom (start : Nat) : List Text → List Span
  | [] => []
  | slice :: slices =>
    ⟨start, start + slice.byteSize⟩ :: spansFrom (start + slice.byteSize) slices

def captureSpans : List Segment → List Span → List Span
  | segment :: segments, span :: spans =>
    if segment.isCapture then span :: captureSpans segments spans else captureSpans segments spans
  | _, _ => []

/-- Where a pattern matched and where its captures are. -/
structure Match where
  range : Span
  captures : List Span
  deriving DecidableEq, Repr

namespace Pattern

/-- The match of a found cut, when the text that was searched starts at an offset. -/
def toMatch (p : Pattern) (offset : Nat) (found : Found) : Match :=
  let start := offset + found.before.byteSize
  ⟨⟨start, start + found.whole.byteSize⟩, captureSpans p.segments (spansFrom start found.slices)⟩

/-- The match that starts exactly at a byte offset. -/
def matchAt (p : Pattern) (text : Text) (start : Nat) : Option Match := do
  let (before, after) ← text.splitAtByte start
  let found ← p.matchHere before.getLast? after
  return p.toMatch start found

/-- The leftmost match that starts at a byte offset or after it. -/
def findAt (p : Pattern) (text : Text) (offset : Nat) : Option Match := do
  let (before, after) ← text.splitAtByte offset
  let found ← p.find before.getLast? after
  return p.toMatch offset found

end Pattern

end Stencil
