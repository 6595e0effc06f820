import Stencil.Text.Basic

/-!
# Tags

Artifact source is text with statement tags in it, each from `<?vm` to the next `?>`. An opening
mark inside a tag and a closing mark outside one are ordinary characters.

* `marks` cuts the source into marks and single characters, the longest mark first.
* `split` puts them together to texts and tags, and refuses a tag that is never closed.
-/

namespace Stencil.Artifact

def tagOpen : Text := "<?vm".toList

def tagClose : Text := "?>".toList

/-- The smallest parts of artifact source. -/
inductive Mark
  | opening
  | closing
  | char (c : Char)
  deriving DecidableEq, Repr

namespace Mark

def text : Mark → Text
  | .opening => tagOpen
  | .closing => tagClose
  | .char c => [c]

def lineFeeds : Mark → Nat
  | .char '\n' => 1
  | _ => 0

end Mark

/-- Cuts source into marks and single characters. -/
def marks : Text → List Mark
  | '<' :: '?' :: 'v' :: 'm' :: rest => .opening :: marks rest
  | '?' :: '>' :: rest => .closing :: marks rest
  | c :: rest => .char c :: marks rest
  | [] => []

/-- A run of text or the body of a tag with the line it starts on. -/
inductive Chunk
  | text (text : Text)
  | tag (body : Text) (line : Nat)
  deriving DecidableEq, Repr

/-- A text chunk in front, unless the text is empty. -/
def consText (text : Text) (chunks : List Chunk) : List Chunk :=
  if text.isEmpty then chunks else .text text :: chunks

mutual

/-- Reads on outside a tag. `done` is the text so far, its last character first. On failure the
answer is the line of the tag that is never closed. -/
def splitText (line : Nat) (done : Text) : List Mark → Except Nat (List Chunk)
  | [] => .ok (consText done.reverse [])
  | .opening :: rest => (splitTag line line [] rest).map (consText done.reverse)
  | mark :: rest => splitText (line + mark.lineFeeds) (mark.text.reverse ++ done) rest

/-- Reads on inside a tag that started on line `start`. -/
def splitTag (start line : Nat) (done : Text) : List Mark → Except Nat (List Chunk)
  | [] => .error start
  | .closing :: rest => (splitText line [] rest).map (.tag done.reverse start :: ·)
  | mark :: rest => splitTag start (line + mark.lineFeeds) (mark.text.reverse ++ done) rest

end

/-- Cuts artifact source into texts and tags; the line of an unclosed tag when there is one. -/
def split (source : Text) : Except Nat (List Chunk) := splitText 1 [] (marks source)

end Stencil.Artifact
