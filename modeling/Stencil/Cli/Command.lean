import Stencil.Cli.Arguments
import Stencil.Project.Config
import Stencil.Render.Renderer

/-!
# Commands

What a command line does to the files of a project, what it prints and what its exit status is.
`run` carries out a command line; all else is about one command each.
-/

namespace Stencil.Cli

inductive Problem
  /-- The command line makes no sense. -/
  | usage
  /-- The command line names no command. -/
  | noCommand
  /-- The data of a render is no object. -/
  | badData
  | error (error : Error)
  deriving DecidableEq, Repr

namespace Problem

def message : Problem → Text
  | .usage => "For more information, try '--help'.".toList
  | .noCommand => "No subcommand specified. Run `vellum --help` for usage.".toList
  | .badData => "`--data` must be a JSON object".toList
  | .error cause => cause.message

def status : Problem → Nat
  | .noCommand => 1
  | _ => 2

end Problem

/-- What a command line comes to. -/
structure Result where
  printed : Text
  problem : Option Problem
  deriving DecidableEq, Repr

namespace Result

def status (r : Result) : Nat :=
  match r.problem with
  | some problem => problem.status
  | none => 0

/-- Success with something printed. -/
def success (printed : Text) : Result := ⟨printed, none⟩

def failure (problem : Problem) : Result := ⟨[], some problem⟩

end Result

def versionLine : Text := "vellum_cli 0.1.0\n".toList

def helpText : Text :=
  ("Usage: vellum [OPTIONS] [COMMAND]\n\n".toList ++
    "Commands:\n  compile [VIEWS]... [--all] [--force] [--watch]\n".toList ++
    "  render <VIEW> [--data <DATA>]\n\n".toList ++
    "Options:\n  -p, --path <PATH>\n  -v, --verbose\n      --no-color\n".toList ++
    "  -h, --help\n  -V, --version\n".toList)

/-- The number of layouts after which a chain is given up. -/
def maxLayouts : Nat := 10000

/-! ## Printing -/

def line (text : Text) : Text := text ++ ['\n']

/-- A text in at least ten columns. -/
def tenColumns (text : Text) : Text := text ++ List.replicate (10 - text.length) ' '

/-- A text between two control sequences of a terminal. -/
def styled (color : Bool) (start stop : Text) (text : Text) : Text :=
  if color then "\x1b[".toList ++ start ++ ['m'] ++ text ++ "\x1b[".toList ++ stop ++ ['m']
  else text

def label (color : Bool) : Outcome → Text
  | .compiled => styled color "32".toList "39".toList "compiled".toList
  | .recompiled => styled color "32".toList "39".toList "recompiled".toList
  | .fresh => styled color "2".toList "0".toList "fresh".toList

/-- The line of a view, left out for one that was up to date unless everything is asked for. -/
def reportLine (color verbose : Bool) (report : Report) : Text :=
  if report.outcome = .fresh ∧ !verbose then []
  else line ("  ".toList ++ tenColumns (label color report.outcome) ++ [' '] ++ report.files.view)

def summary (reports : List Report) : Text :=
  let written := reports.countP fun report => report.outcome.wrote
  if written = 0 then
    "All ".toList ++ Text.ofNat reports.length ++ " view(s) are already up to date.".toList
  else
    "Compiled ".toList ++ Text.ofNat written ++ " view(s), ".toList ++
      Text.ofNat (reports.length - written) ++ " already up to date.".toList

def printReports (color verbose : Bool) (reports : List Report) : Text :=
  if reports.isEmpty then line "No views found.".toList
  else (reports.flatMap (reportLine color verbose)) ++ line (summary reports)

/-! ## Commands -/

/-- Compiles all views, or those that are named. -/
def compile (compiler : Compiler) (views : List Text) (all force : Bool) :
    Step Files.Tree (List Report) :=
  if all || views.isEmpty then compiler.compileAll force else compiler.compileEach force views

/-- The variables that a text of JSON binds, if it is an object. -/
def readVariables? (source : Text) : Option Variables :=
  match Json.parse source with
  | some (.record fields) => some (.ofList fields)
  | _ => none

/-- The root of a project: the path that is given, or the working directory. -/
def root (path : Option Text) (tree : Files.Tree) : Text :=
  path.getD (Path.ofNames true tree.here)

def runCompile (invocation : Invocation) (color : Bool) (views : List Text) (all force : Bool)
    (tree : Files.Tree) : Result × Files.Tree :=
  let root := root invocation.path tree
  match (Config.loadOrDefault tree root).bind fun config => config.compiler root with
  | .error error => (.failure (.error error), tree)
  | .ok compiler =>
    match compile compiler views all force tree with
    | (.ok reports, tree) => (.success (printReports color invocation.verbose reports), tree)
    | (.error error, tree) => (.failure (.error error), tree)

def runRender (invocation : Invocation) (view : Text) (data : Option Text) (tree : Files.Tree) :
    Result × Files.Tree :=
  let root := root invocation.path tree
  let prepared : Except Error (Compiler × Variables) := do
    let config ← Config.loadOrDefault tree root
    let compiler ← config.compiler root
    return (compiler, ← config.loadData tree root)
  match prepared with
  | .error error => (.failure (.error error), tree)
  | .ok (compiler, configured) =>
    match data.map readVariables? with
    | some none => (.failure .badData, tree)
    | overrides =>
      let data := configured.insertAll ((overrides.join.map NameMap.entries).getD [])
      match Renderer.render ⟨compiler, Expr.evaluate, none, maxLayouts⟩ view data tree with
      | (.ok output, tree) => (.success output, tree)
      | (.error error, tree) => (.failure (.error error), tree)

/-- Carries out a command line. With `color` the output may be coloured. -/
def run (words : List Text) (color : Bool) (tree : Files.Tree) : Result × Files.Tree :=
  match Request.parse words with
  | none => (.failure .usage, tree)
  | some .version => (.success versionLine, tree)
  | some .help => (.success helpText, tree)
  | some (.run invocation) =>
    match invocation.command with
    | none => (.failure .noCommand, tree)
    | some (.compile views all force _) =>
      runCompile invocation (color && !invocation.noColor) views all force tree
    | some (.render view data) => runRender invocation view data tree

end Stencil.Cli
