import Stencil.Error
import Stencil.Project.Exclude
import Stencil.Project.Options

/-!
# Compiling views

A compiler turns the sources of views into artifacts, which it writes to files. An artifact that is
not older than its source is kept. Only the source of the view itself counts: a view that another
one extends or includes may change without the artifact being written again.

* `Compiler.compileView` brings one artifact up to date, `Compiler.compileAll` all of them.
* `Compiler.discover` finds the views below the input directory. What a pattern of sources that are
  not compiled means is decided by a library; `Compiler.discoverWith` takes its decision as it comes.
-/

namespace Stencil

inductive Staleness
  | missing
  /-- The source has been changed after the artifact was written. -/
  | outdated
  | fresh
  deriving DecidableEq, Repr

inductive Outcome
  /-- There was no artifact. -/
  | compiled
  /-- The artifact was replaced. -/
  | recompiled
  /-- The artifact was kept. -/
  | fresh
  deriving DecidableEq, Repr

namespace Outcome

def wrote : Outcome → Bool
  | .fresh => false
  | _ => true

/-- What is to be done about an artifact, which can be forced to be written. -/
def of (force : Bool) : Staleness → Outcome
  | .missing => .compiled
  | .outdated => .recompiled
  | .fresh => if force then .recompiled else .fresh

end Outcome

structure Report where
  files : ViewFiles
  outcome : Outcome
  deriving DecidableEq, Repr

structure Compiler where
  options : Options
  rules : RuleTable
  deriving DecidableEq, Repr

namespace Compiler

open Files (Tree)

def resolve (c : Compiler) (view : Text) : ViewFiles := c.options.resolve view

/-- The source of a view is there. -/
def has (c : Compiler) (tree : Tree) (view : Text) : Bool := tree.isFile (c.resolve view).source

/-! ## Directories -/

/-- What is wrong with the directories, if anything is. A directory without any right to write is
read-only, whoever asks. -/
def directoryFault? (o : Options) (tree : Tree) : Option Error :=
  match tree.stat o.input with
  | .error fault => some (.directory o.input (.unreadable fault))
  | .ok (.file _ _) => some (.directory o.input .inputIsNoDirectory)
  | .ok (.directory mode _) =>
    if mode &&& 0o222 = 0 then some (.directory o.input .inputReadOnly)
    else if o.output.getLast? ≠ some '/' then some (.directory o.output .outputWithoutSeparator)
    else none

/-- Makes the output directory unless there is something in its place. -/
def prepareOutput (o : Options) : Step Tree Unit := fun tree =>
  if tree.has o.output then (.ok (), tree)
  else
    match tree.createDirectories o.output with
    | (.ok (), tree) => (.ok (), tree)
    | (.error fault, tree) => (.error (.system fault), tree)

def validateDirectories (c : Compiler) : Step Tree Unit := fun tree =>
  match directoryFault? c.options tree with
  | some error => (.error error, tree)
  | none => prepareOutput c.options tree

/-! ## One view -/

def staleness (tree : Tree) (files : ViewFiles) : Except Error Staleness :=
  match tree.stat files.artifact with
  | .error .missing => .ok .missing
  | .error fault => .error (.system fault)
  | .ok artifact =>
    match tree.stat files.source with
    | .error fault => .error (.system fault)
    | .ok source => .ok (if artifact.modified < source.modified then .outdated else .fresh)

def artifactOf (c : Compiler) (source : Text) : Except Error Text :=
  match c.rules.compile source with
  | .ok artifact => .ok artifact
  | .error malformed => .error (.rule malformed)

/-- The artifact that the source of a view has at the moment. -/
def freshArtifact (c : Compiler) (tree : Tree) (files : ViewFiles) : Except Error Text :=
  match tree.read files.source with
  | .ok source => c.artifactOf source
  | .error fault => .error (.system fault)

def writeArtifact (c : Compiler) (files : ViewFiles) : Step Tree Unit := fun tree =>
  match c.freshArtifact tree files with
  | .error error => (.error error, tree)
  | .ok artifact =>
    match tree.replace files.artifact artifact with
    | (.ok (), tree) => (.ok (), tree)
    | (.error fault, tree) => (.error (.system fault), tree)

/-- Writes the artifact of a view if its source is there and it has to be written. -/
def update (c : Compiler) (force : Bool) (files : ViewFiles) : Step Tree Report := fun tree =>
  if !tree.isFile files.source then (.error (.sourceNotFound files.view files.source), tree)
  else
    match staleness tree files with
    | .error error => (.error error, tree)
    | .ok staleness =>
      let outcome := Outcome.of force staleness
      if outcome.wrote then
        match c.writeArtifact files tree with
        | (.ok (), tree) => (.ok ⟨files, outcome⟩, tree)
        | (.error error, tree) => (.error error, tree)
      else (.ok ⟨files, outcome⟩, tree)

def compileView (c : Compiler) (force : Bool) (view : Text) : Step Tree Report := do
  c.validateDirectories
  c.update force (c.resolve view)

/-! ## All views -/

/-- The ways to an entry and to the directories around it. -/
def waysTo (way : Files.Location) : List Files.Location :=
  (List.range way.length).map fun count => way.take (count + 1)

/-- The path to an entry below the input directory is not too long for the system to look it up. -/
def isReachable (o : Options) (way : Files.Location) : Bool :=
  (o.pathTo way).byteSize ≤ Tree.maxPathSize

def isSearched (o : Options) (excluded : Matcher) (way : Files.Location) : Bool :=
  isReachable o way && !excluded (Text.join ['/'] way) true

def withoutBackslashes (text : Text) : Text := text.map fun c => if c == '\\' then '/' else c

/-- The view of what stands at the end of a way below the input directory, if it is taken for a source.
Of a directory that cannot be looked up the system does not say that it is one. -/
def viewAt? (o : Options) (excluded : Matcher) (way : Files.Location) (entry : Files.Entry) :
    Option Text :=
  if (entry.isDirectory && isReachable o way) ||
      !(waysTo way.dropLast).all (isSearched o excluded) ||
      excluded (Text.join ['/'] way) false || !o.sourceSuffix.isSuffixOf (way.getLast?.getD []) then
    none
  else Text.dropEnd? o.sourceSuffix (withoutBackslashes (Text.join ['/'] way))

/-- The views below a location, in the order of the tree. -/
def viewsBelow (o : Options) (excluded : Matcher) (tree : Tree) (location : Files.Location) :
    List Text :=
  (tree.entriesBelow location).filterMap fun (way, entry) => viewAt? o excluded way entry

/-- The views below the input directory, in the order of their names. `build` gives the decision that
the patterns stand for, or the first malformed one. -/
def discoverWith (c : Compiler) (build : List Text → Except Text Matcher) (tree : Tree) :
    Except Error (List Text) :=
  match build c.options.exclude with
  | .error pattern => .error (.config (.excludePattern pattern))
  | .ok excluded =>
    match tree.locateDirectory c.options.input with
    | .error fault => .error (.system fault)
    | .ok location =>
      .ok ((viewsBelow c.options excluded tree location).mergeSort fun a b =>
        Text.order a b != .gt)

def discover (c : Compiler) : Tree → Except Error (List Text) := c.discoverWith ExcludeRule.matcher

/-- Brings the artifacts of views up to date, one after the other. -/
def compileEach (c : Compiler) (force : Bool) : List Text → Step Tree (List Report)
  | [] => Step.done []
  | view :: views => do
    let report ← c.compileView force view
    let reports ← c.compileEach force views
    return report :: reports

def compileAllWith (c : Compiler) (build : List Text → Except Text Matcher) (force : Bool) :
    Step Tree (List Report) := do
  c.validateDirectories
  let tree ← Step.state
  let views ← Step.ofExcept (c.discoverWith build tree)
  c.compileEach force views

def compileAll (c : Compiler) (force : Bool) : Step Tree (List Report) :=
  c.compileAllWith ExcludeRule.matcher force

end Compiler

end Stencil
