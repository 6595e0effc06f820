import Stencil.Cli.Command

/-!
# The command line program

The program reads the files that a command can see into a tree, carries the command out on the tree,
and writes back what has changed. Times are nanoseconds. Every directory counts as one that can be
written to; where that is wrong, writing back fails.
-/

namespace Stencil.Program

def diskName (location : Files.Location) : String := String.ofList (Path.ofNames true location)

def nanoseconds (time : IO.FS.SystemTime) : Int := time.sec * 1000000000 + time.nsec.toNat

/-- The time of day: that of a file made just now. -/
def timeOfDay : IO Int := do
  let (_, path) ← IO.FS.createTempFile
  let time := (← path.metadata).modified
  IO.FS.removeFile path
  return nanoseconds time

/-- The entry at a place, a directory without what is in it. -/
def entryAt? (location : Files.Location) : IO (Option Files.Entry) := do
  let path := (← IO.currentDir) / diskName location
  try
    let data ← path.metadata
    let modified := nanoseconds data.modified
    if data.type == .dir then return some (.directory 0o755 modified)
    else return some (.file (.ofBytes (← IO.FS.readBinFile path).toList) modified)
  catch _ => return none

/-- Adds the entry at a place, if there is one and it is not known. -/
def loadEntry (tree : Files.Tree) (location : Files.Location) : IO Files.Tree := do
  if (tree.entryAt? location).isSome then return tree
  match ← entryAt? location with
  | some entry => return { tree with entries := (location, entry) :: tree.entries }
  | none => return tree

/-- Adds what lies at a place and below it. -/
partial def loadAll (tree : Files.Tree) (location : Files.Location) : IO Files.Tree := do
  let tree ← loadEntry tree location
  match tree.entryAt? location with
  | some (.directory _ _) =>
    let children ← ((← IO.currentDir) / diskName location).readDir
    children.foldlM (fun tree child => loadAll tree (location ++ [child.fileName.toList])) tree
  | _ => return tree

/-- Adds what lies at the end of a path, below it, and on the way to it. -/
def load (tree : Files.Tree) (path : Text) : IO Files.Tree := do
  let names := Path.names (Path.join (Path.ofNames true tree.here) path)
  let location := names.foldl (fun location name =>
    if name = ['.', '.'] then location.dropLast else location ++ [name]) []
  let tree ← (List.range location.length).foldlM (fun tree count =>
    loadEntry tree (location.take count)) tree
  loadAll tree location

/-- The tree that a command can see: the configuration of a project and what it names. -/
def loadProject (tree : Files.Tree) (words : List Text) : IO Files.Tree := do
  match Cli.Request.parse words with
  | some (.run ⟨path, _, _, some _⟩) =>
    let root := Cli.root path tree
    let tree ← (Config.candidates.map (Path.join root)).foldlM load tree
    match Config.loadOrDefault tree root with
    | .ok config =>
      let options := config.options root
      let data := config.data.entries.map fun (_, path) => Path.join root path
      (options.input :: options.output :: data).foldlM load tree
    | .error _ => return tree
  | _ => return tree

def store (before after : Files.Tree) : IO Unit := do
  for (location, entry) in after.entries do
    let name := diskName location
    match before.entryAt? location, entry with
    | some (.directory _ _), .directory _ _ => pure ()
    | _, .directory _ _ => IO.FS.createDirAll name
    | old, .file content modified =>
      if old != some (.file content modified) then
        let fresh := name ++ "~"
        IO.FS.writeBinFile fresh ⟨content.toBytes.toArray⟩
        IO.FS.rename fresh name

def complain (problem : Cli.Problem) : IO Unit := do
  let line (text : Text) : IO Unit := IO.eprintln (String.ofList text)
  match problem with
  | .error cause =>
    line cause.code
    line ("error: ".toList ++ problem.message)
    match cause.help with
    | some help => line ("help: ".toList ++ help)
    | none => pure ()
  | .noCommand => line problem.message
  | _ => line ("error: ".toList ++ problem.message)

end Stencil.Program

open Stencil Stencil.Program

def main (arguments : List String) : IO UInt32 := do
  let words := arguments.map String.toList
  let here := Path.names (← IO.currentDir).toString.toList
  let before ← loadProject ⟨[], here, ← timeOfDay⟩ words
  let color := (← IO.getEnv "NO_COLOR").isNone
  let (result, after) := Cli.run words color before
  store before after
  IO.print (String.ofList result.printed)
  match result.problem with
  | some problem => complain problem
  | none => pure ()
  return UInt32.ofNat result.status
