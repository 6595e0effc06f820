import Stencil.Text.Basic

/-!
# Paths

A path is a text with slashes between names. A path that starts with a slash is read from the root
of the tree, any other from the working directory.
-/

namespace Stencil.Path

def isAbsolute (path : Text) : Bool := path.head? == some '/'

/-- The path of `right` as seen from `left`. -/
def join (left right : Text) : Text :=
  if isAbsolute right then right
  else if left.isEmpty || left.getLast? == some '/' then left ++ right
  else left ++ ['/'] ++ right

def parts (path : Text) : List Text := Text.splitOn (· == '/') path

/-- The parts that lead somewhere. -/
def names (path : Text) : List Text := (parts path).filter fun part => part ≠ [] ∧ part ≠ ['.']

def ofNames (absolute : Bool) (names : List Text) : Text :=
  (if absolute then ['/'] else []) ++ Text.join ['/'] names

def parent (path : Text) : Text := ofNames (isAbsolute path) (names path).dropLast

/-- The path, then its parents up to the root or to the working directory. -/
def withParents (path : Text) : List Text :=
  (List.range ((names path).length + 1)).reverse.map fun count =>
    ofNames (isAbsolute path) ((names path).take count)

/-- The last name, unless it leads upwards. -/
def fileName? (path : Text) : Option Text := (names path).getLast?.filter (· ≠ "..".toList)

/-- A name in front of and behind its last point, unless only its first character is a point. -/
def cutExtension? (name : Text) : Option (Text × Text) :=
  (Text.cutLast? ['.'] name).filter fun (stem, _) => !stem.isEmpty

def extension? (path : Text) : Option Text :=
  (fileName? path).bind fun name => (cutExtension? name).map Prod.snd

/-- The name with another extension, or with its first one. -/
def renameExtension (extension name : Text) : Text :=
  ((cutExtension? name).map Prod.fst).getD name ++ '.' :: extension

/-- The path up to its last name, which gets another extension. A path that ends in no name stays as
it is. -/
def withExtension (extension path : Text) : Text :=
  match fileName? path with
  | none => path
  | some name =>
    let front := ((parts path).reverse.dropWhile fun part => part = [] ∨ part = ['.']).tail.reverse
    Text.join ['/'] (front ++ [renameExtension extension name])

end Stencil.Path
