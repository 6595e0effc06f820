import Stencil.Text.Basic

/-!
# Characters with a meaning in markup

`escape` writes the five characters that markup gives a meaning to as entities.
-/

namespace Stencil.Markup

/-- The characters that are written as entities, each with its entity. -/
def entities : List (Char × Text) :=
  [('<', "&lt;".toList), ('>', "&gt;".toList), ('&', "&amp;".toList), ('"', "&quot;".toList),
    ('\'', "&#x27;".toList)]

def escapeChar (c : Char) : Text := (entities.lookup c).getD [c]

/-- Writes the characters with a meaning in markup as entities. -/
def escape (text : Text) : Text := text.flatMap escapeChar

end Stencil.Markup
