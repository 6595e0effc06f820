import Stencil.Text.Basic

/-!
# Patterns

A pattern is a list of segments: runs of literal text and slots that match by a rule. Its source
form writes a percent sign before the letter of a slot, and doubles a percent sign that is text.

* `Pattern.parse` reads the source form, `Pattern.print` writes it.
* `Pattern.captureCount` is the number of slots whose text a replacement can use.
-/

namespace Stencil

/-- How a capture slot decides where its text ends. -/
inductive Capture
  /-- The shortest run on the line that lets the rest match. -/
  | short
  /-- The shortest run, over as many lines as it takes. -/
  | shortAcrossLines
  /-- The longest run on the line that lets the rest match. -/
  | long
  /-- The shortest run on the line whose brackets and strings are closed. -/
  | balanced
  deriving DecidableEq, Repr

inductive Segment
  /-- Text that stands as it is. -/
  | literal (text : Text)
  /-- Any run of blanks, line breaks included. -/
  | blanks
  /-- The start of the text or of a line. -/
  | lineStart
  /-- One or more carriage returns and line feeds. -/
  | lineBreaks
  /-- A slot whose text is kept. -/
  | capture (kind : Capture)
  deriving DecidableEq, Repr

namespace Segment

/-- The slot that a letter after a percent sign stands for. -/
def ofLetter? : Char → Option Segment
  | 's' => some .blanks
  | '?' => some (.capture .short)
  | '*' => some (.capture .shortAcrossLines)
  | '+' => some (.capture .long)
  | 'b' => some (.capture .balanced)
  | '^' => some .lineStart
  | 'n' => some .lineBreaks
  | _ => none

def isCapture : Segment → Bool
  | .capture _ => true
  | _ => false

def print : Segment → Text
  | .literal text => text.flatMap fun c => if c = '%' then ['%', '%'] else [c]
  | .blanks => ['%', 's']
  | .lineStart => ['%', '^']
  | .lineBreaks => ['%', 'n']
  | .capture .short => ['%', '?']
  | .capture .shortAcrossLines => ['%', '*']
  | .capture .long => ['%', '+']
  | .capture .balanced => ['%', 'b']

/-- Puts a character of literal text in front. -/
def consChar (c : Char) : List Segment → List Segment
  | .literal text :: segments => .literal (c :: text) :: segments
  | segments => .literal [c] :: segments

end Segment

structure Pattern where
  segments : List Segment
  deriving DecidableEq, Repr

namespace Pattern

inductive Fault
  /-- A percent sign at the end. -/
  | trailingPercent
  /-- A percent sign before a letter that names no segment. -/
  | unknownLetter (letter : Char)
  /-- Nothing to match. -/
  | empty
  deriving DecidableEq, Repr

/-- Reads the segments of a source form; literal characters that touch form one segment. -/
def read : Text → Except Fault (List Segment)
  | [] => .ok []
  | ['%'] => .error .trailingPercent
  | '%' :: '%' :: rest => (read rest).map (Segment.consChar '%')
  | '%' :: letter :: rest =>
    match Segment.ofLetter? letter with
    | some segment => (read rest).map (segment :: ·)
    | none => .error (.unknownLetter letter)
  | c :: rest => (read rest).map (Segment.consChar c)

def parse (source : Text) : Except Fault Pattern :=
  match read source with
  | .ok [] => .error .empty
  | .ok segments => .ok ⟨segments⟩
  | .error fault => .error fault

def print (p : Pattern) : Text := p.segments.flatMap Segment.print

def captureCount (p : Pattern) : Nat := p.segments.countP Segment.isCapture

def Fault.message : Fault → Text
  | .trailingPercent => "trailing `%` without a segment token".toList
  | .unknownLetter letter => "unknown segment token `%".toList ++ [letter, '`']
  | .empty => "pattern is empty".toList

end Pattern

end Stencil
