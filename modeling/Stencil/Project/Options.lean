import Stencil.Files.Path

/-!
# Options of a project

Where the sources of views are and where their artifacts go. `Options.resolve` finds the files of a
view: the source keeps the directories of the view's name, the artifact lies in the output directory
itself, with points for the slashes.
-/

namespace Stencil

structure Options where
  /-- The directory of the sources. -/
  input : Text
  /-- The directory of the artifacts; a slash has to end it. -/
  output : Text
  sourceExtension : Text
  artifactExtension : Text
  /-- Patterns of sources that are not compiled when all are. -/
  exclude : List Text
  deriving DecidableEq, Repr

structure ViewFiles where
  view : Text
  source : Text
  artifact : Text
  deriving DecidableEq, Repr

/-- A slash of either direction. -/
def isSlash (c : Char) : Bool := c == '/' || c == '\\'

/-- The name of a view with points for its slashes. -/
def flattenName (view : Text) : Text := view.map fun c => if isSlash c then '.' else c

namespace Options

def defaultSourceExtension : Text := "tmpl".toList

def defaultArtifactExtension : Text := "out".toList

/-- The files of a view; slashes at the start of its name do not count. -/
def resolve (o : Options) (view : Text) : ViewFiles :=
  let view := view.dropWhile isSlash
  ⟨view, Path.join o.input (view ++ ['.'] ++ o.sourceExtension),
    Path.join o.output (flattenName view ++ ['.'] ++ o.artifactExtension)⟩

def sourceSuffix (o : Options) : Text := '.' :: o.sourceExtension

/-- The path of what is at the end of a way below the input directory. -/
def pathTo (o : Options) (way : List Text) : Text := Path.join o.input (Text.join ['/'] way)

end Options

end Stencil
