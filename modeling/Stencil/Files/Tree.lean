import Stencil.Files.Path

/-!
# File trees

A tree of files and directories held as a list of entries by location, with a working directory, the
time of day and the process that works on it. Paths are looked up as a system does it: every step but
the last has to be taken from a directory, a dot stays, two dots lead upwards and nothing is done to
names beforehand.

* `Tree.stat` looks a path up.
* `Tree.createDirectories` makes a directory and its missing parents.
* `Tree.replace` writes a temporary file next to its target and moves it there, so that a reader of
  the target sees the old content or the new one. The name of the temporary file is longer than that of
  the target, and a system may not take it.

Adding or removing an entry changes the time of its directory.
-/

namespace Stencil.Files

inductive Fault
  | missing
  | exists
  | notDirectory
  | isDirectory
  | busy
  | nameTooLong
  /-- A path with a null character. -/
  | nullInPath
  /-- A file that is read as text is not UTF-8. -/
  | notText
  deriving DecidableEq, Repr

def Fault.message : Fault → Text
  | .missing => "No such file or directory (os error 2)".toList
  | .exists => "File exists (os error 17)".toList
  | .notDirectory => "Not a directory (os error 20)".toList
  | .isDirectory => "Is a directory (os error 21)".toList
  | .busy => "Device or resource busy (os error 16)".toList
  | .nameTooLong => "File name too long (os error 36)".toList
  | .nullInPath => "file name contained an unexpected NUL byte".toList
  | .notText => "stream did not contain valid UTF-8".toList

inductive Content
  | text (text : Text)
  /-- Bytes that are not UTF-8. -/
  | bytes (bytes : List UInt8)
  deriving DecidableEq, Repr

def Content.ofBytes (bytes : List UInt8) : Content :=
  match String.fromUTF8? ⟨bytes.toArray⟩ with
  | some decoded => .text decoded.toList
  | none => .bytes bytes

def Content.toBytes : Content → List UInt8
  | .text characters => (String.ofList characters).toUTF8.toList
  | .bytes raw => raw

inductive Entry
  | file (content : Content) (modified : Int)
  | directory (mode : Nat) (modified : Int)
  deriving DecidableEq, Repr

namespace Entry

/-- The time of the last change. -/
def modified : Entry → Int
  | .file _ modified => modified
  | .directory _ modified => modified

def isDirectory : Entry → Bool
  | .directory _ _ => true
  | .file _ _ => false

def withModified (modified : Int) : Entry → Entry
  | .file content _ => .file content modified
  | .directory mode _ => .directory mode modified

end Entry

/-- The names on the way from the root to an entry. -/
abbrev Location := List Text

/-- A process, by the number that the system has given it. -/
class Process where
  number : Nat
  deriving DecidableEq, Repr

/-- The process of a tree for which no other is named. -/
instance : Process := ⟨1⟩

structure Tree where
  entries : List (Location × Entry)
  /-- The working directory. -/
  here : Location
  /-- The time of day, in seconds since the start of 1970. -/
  now : Int
  /-- The process that works on the tree. -/
  [process : Process]
  deriving DecidableEq, Repr

namespace Tree

/-! ## Entries -/

/-- The entry at a location; the root is always a directory. -/
def entryAt? (t : Tree) (location : Location) : Option Entry :=
  if location = [] then some (.directory 0o755 0)
  else (t.entries.find? fun (other, _) => other = location).map Prod.snd

def setEntry (location : Location) (entry : Entry) :
    List (Location × Entry) → List (Location × Entry)
  | [] => [(location, entry)]
  | (other, old) :: rest =>
    if other = location then (location, entry) :: rest
    else (other, old) :: setEntry location entry rest

def put (t : Tree) (location : Location) (entry : Entry) : Tree :=
  { t with entries := setEntry location entry t.entries }

def erase (t : Tree) (location : Location) : Tree :=
  { t with entries := t.entries.filter fun (other, _) => other ≠ location }

/-- Removes the entry at a location and everything below it. -/
def eraseAll (t : Tree) (location : Location) : Tree :=
  { t with entries := t.entries.filter fun (other, _) => !location.isPrefixOf other }

/-- Changes the time of an entry to now. -/
def stamp (t : Tree) (location : Location) : Tree :=
  match t.entryAt? location with
  | some entry => t.put location (entry.withModified t.now)
  | none => t

/-- Adds an entry; its directory changes now. -/
def add (t : Tree) (location : Location) (entry : Entry) : Tree :=
  (t.put location entry).stamp location.dropLast

def remove (t : Tree) (location : Location) : Tree := (t.erase location).stamp location.dropLast

/-! ## Looking up paths -/

/-- The longest name, in bytes. -/
def maxNameSize : Nat := 255

/-- The longest path, in bytes. -/
def maxPathSize : Nat := 4095

/-- Follows the parts of a path. Each part is a step from a directory; where the last one leads
nothing has to be. -/
def follow (t : Tree) (location : Location) : List Text → Except Fault Location
  | [] => .ok location
  | part :: parts =>
    match t.entryAt? location with
    | none => .error .missing
    | some (.file _ _) => .error .notDirectory
    | some (.directory _ _) =>
      if part = [] ∨ part = ['.'] then t.follow location parts
      else if part = ['.', '.'] then t.follow location.dropLast parts
      else if maxNameSize < part.byteSize then .error .nameTooLong
      else t.follow (location ++ [part]) parts

/-- What is wrong with a path whatever the tree holds. -/
def pathFault? (path : Text) : Option Fault :=
  if path.isEmpty then some .missing
  else if path.contains '\x00' then some .nullInPath
  else if maxPathSize < path.byteSize then some .nameTooLong
  else none

/-- Where the lookup of a path starts. -/
def origin (t : Tree) (path : Text) : Location := if Path.isAbsolute path then [] else t.here

def locate (t : Tree) (path : Text) : Except Fault Location :=
  match pathFault? path with
  | some fault => .error fault
  | none => t.follow (t.origin path) (Path.parts path)

/-- The entry at the end of a path. -/
def stat (t : Tree) (path : Text) : Except Fault Entry :=
  match t.locate path with
  | .error fault => .error fault
  | .ok location =>
    match t.entryAt? location with
    | some entry => .ok entry
    | none => .error .missing

def has (t : Tree) (path : Text) : Bool := (t.stat path).isOk

def isFile (t : Tree) (path : Text) : Bool :=
  match t.stat path with
  | .ok (.file _ _) => true
  | _ => false

def isDirectory (t : Tree) (path : Text) : Bool :=
  match t.stat path with
  | .ok (.directory _ _) => true
  | _ => false

def read (t : Tree) (path : Text) : Except Fault Text :=
  match t.stat path with
  | .ok (.file (.text text) _) => .ok text
  | .ok (.file (.bytes _) _) => .error .notText
  | .ok (.directory _ _) => .error .isDirectory
  | .error fault => .error fault

def locateDirectory (t : Tree) (path : Text) : Except Fault Location :=
  match t.locate path with
  | .error fault => .error fault
  | .ok location =>
    match t.entryAt? location with
    | some (.directory _ _) => .ok location
    | some (.file _ _) => .error .notDirectory
    | none => .error .missing

/-! ## Below a directory -/

/-- The way from one location to another below it. -/
def below? (location other : Location) : Option Location :=
  (location.isPrefixOf? other).filter (· ≠ [])

/-- Everything below a location, each entry by the way to it. -/
def entriesBelow (t : Tree) (location : Location) : List (Location × Entry) :=
  t.entries.filterMap fun (other, entry) => (below? location other).map fun way => (way, entry)

/-! ## Changing the tree -/

/-- Makes one directory. Slashes at the end of its path count for the length of the path only. -/
def createDirectory (t : Tree) (path : Text) : Except Fault Tree :=
  match pathFault? path with
  | some fault => .error fault
  | none =>
    match t.locate (if path = ['/'] then path else Text.dropEndWhile (· == '/') path) with
    | .error fault => .error fault
    | .ok location =>
      if (t.entryAt? location).isSome then .error .exists
      else .ok (t.add location (.directory 0o755 t.now))

/-- Makes the first of some directories; the others are its parents, from the innermost outwards.
What has been made stays even if the whole fails. -/
def createInnermost (t : Tree) : List Text → Except Fault Unit × Tree
  | [] => (.ok (), t)
  | path :: parents =>
    if path.isEmpty then (.ok (), t)
    else match t.createDirectory path with
      | .ok t => (.ok (), t)
      | .error .missing =>
        match t.createInnermost parents with
        | (.error fault, t) => (.error fault, t)
        | (.ok (), t) =>
          match t.createDirectory path with
          | .ok t => (.ok (), t)
          | .error fault => if t.isDirectory path then (.ok (), t) else (.error fault, t)
      | .error fault => if t.isDirectory path then (.ok (), t) else (.error fault, t)

def createDirectories (t : Tree) (path : Text) : Except Fault Unit × Tree :=
  t.createInnermost (path :: (Path.withParents path).tail)

/-- The extension of a temporary file: the process and an instant, in nanoseconds. -/
def temporaryExtension (t : Tree) (instant : Nat) : Text :=
  "tmp-".toList ++ Text.ofNat t.process.number ++ '-' :: Text.ofNat instant

/-- The first nanosecond of the present second; the start of 1970 for a time before it. -/
def instant (t : Tree) : Nat := t.now.toNat * 1000000000

def temporaryPath (t : Tree) (path : Text) : Text :=
  Path.withExtension (t.temporaryExtension t.instant) path

/-- The locations that a temporary file can have: each instant gives it another name, and one more of
them than there are entries is always free. -/
def temporaryLocations (t : Tree) (directory : Location) (name : Text) : List Location :=
  (List.range (t.entries.length + 1)).map fun later =>
    directory ++ [Path.renameExtension (t.temporaryExtension (t.instant + later)) name]

/-- Where the temporary file for the end of a path is written. A clock does not show an instant twice,
so that of a name that is taken has passed, and a later one counts. -/
def locateTemporary (t : Tree) (path : Text) : Except Fault Location :=
  match t.locate (t.temporaryPath path), Path.fileName? path with
  | .error fault, _ => .error fault
  -- Without a name of its own a path can lead to directories only.
  | .ok _, none => .error .isDirectory
  | .ok location, some name =>
    .ok (((t.temporaryLocations location.dropLast name).find? fun location =>
      (t.entryAt? location).isNone).getD location)

/-- Moves a file to the end of a path, over a file that is there. -/
def move (t : Tree) (source : Location) (path : Text) : Except Fault Tree :=
  match t.locate (Text.dropEndWhile (· == '/') path) with
  | .error fault => .error fault
  | .ok target =>
    if (Path.parts path).getLast? = some [] then .error .notDirectory
    else if (Path.parts path).getLast? = some ['.'] then .error .busy
    else match t.entryAt? target, t.entryAt? source with
      | some (.directory _ _), _ => .error .isDirectory
      | _, some entry => .ok ((t.remove source).add target entry)
      | _, none => .error .missing

/-- Writes a text to a temporary file next to the end of a path and moves it there; when it cannot be
moved it is removed again. -/
def replace (t : Tree) (path text : Text) : Except Fault Unit × Tree :=
  match t.locateTemporary path with
  | .error fault => (.error fault, t)
  | .ok source =>
    let written := t.add source (.file (.text text) t.now)
    match written.move source path with
    | .ok moved => (.ok (), moved)
    | .error fault => (.error fault, written.remove source)

end Tree

end Stencil.Files
