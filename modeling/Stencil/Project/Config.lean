import Stencil.Data.Toml
import Stencil.Data.Yaml
import Stencil.Project.Compiler

/-!
# Configuration

What a configuration file says about a project: where its views are, which data files its renders
see and which directives it adds. Everything has a default, so an empty file is a configuration;
keys that mean nothing are ignored.

* `Config.load` finds and reads the configuration of a project.
* `Config.options` and `Config.ruleTable` are what a compiler works with.
* `Config.loadData` reads the data files, each by its extension.
-/

namespace Stencil

structure Config where
  input : Text
  /-- Kept as it is written, so that a missing slash at the end is reported. -/
  output : Text
  sourceExtension : Text
  artifactExtension : Text
  exclude : List Text
  /-- Data files by the names of their variables. -/
  data : NameMap Text
  /-- Directives that are applied after the ones of the template language. -/
  directives : List Rule
  deriving DecidableEq, Repr

namespace Config

/-- The configuration of a project without a configuration file. -/
def default : Config :=
  ⟨"views/".toList, ".vellum/compiled/".toList, Options.defaultSourceExtension,
    Options.defaultArtifactExtension, [], .empty, []⟩

/-! ## Reading -/

def text? : Toml.Value → Option Text
  | .text value => some value
  | _ => none

def texts? : Toml.Value → Option (List Text)
  | .array items => items.mapM text?
  | _ => none

/-- The fields of a table, or of an array that lists them in the order of `names`. -/
def fields? (names : List Text) : Toml.Value → Option (List (Text × Toml.Value))
  | .table entries => some entries
  | .array items => some (names.zip items)
  | _ => none

/-- The field of a name, read by `read?`; a default in its place when it is missing. -/
def fieldOr {α : Type} (fields : List (Text × Toml.Value)) (name : Text)
    (read? : Toml.Value → Option α) (missing : α) : Option α :=
  match fields.lookup name with
  | some value => read? value
  | none => some missing

def viewFields : List Text :=
  ["input".toList, "output".toList, "source_extension".toList, "artifact_extension".toList,
    "exclude".toList]

def readViews? (config : Config) (value : Toml.Value) : Option Config := do
  let fields ← fields? viewFields value
  let input ← fieldOr fields "input".toList text? config.input
  let output ← fieldOr fields "output".toList text? config.output
  let sourceExtension ← fieldOr fields "source_extension".toList text? config.sourceExtension
  let artifactExtension ← fieldOr fields "artifact_extension".toList text? config.artifactExtension
  let exclude ← fieldOr fields "exclude".toList texts? config.exclude
  return { config with input, output, sourceExtension, artifactExtension, exclude }

def readData? : Toml.Value → Option (NameMap Text)
  | .table entries => do
    let files ← entries.mapM fun (name, value) => (text? value).map fun path => (name, path)
    return .ofList files
  | _ => none

def readDirective? (value : Toml.Value) : Option Rule := do
  let fields ← fields? ["pattern".toList, "rewrite".toList] value
  return ⟨← (fields.lookup "pattern".toList).bind text?,
    ← (fields.lookup "rewrite".toList).bind text?⟩

def readDirectives? : Toml.Value → Option (List Rule)
  | .array items => items.mapM readDirective?
  | _ => none

/-- The configuration that a table describes. -/
def ofToml? (value : Toml.Value) : Option Config := do
  let .table fields := value | none
  let config ← fieldOr fields "views".toList (readViews? default) default
  let data ← fieldOr fields "data".toList readData? .empty
  let directives ← fieldOr fields "directives".toList readDirectives? []
  return { config with data, directives }

def parse (source : Text) : Except Error Config :=
  match (Toml.parse source).bind ofToml? with
  | some config => .ok config
  | none => .error (.config .malformed)

/-! ## Files -/

/-- Where a configuration can lie, the first place first. -/
def candidates : List Text :=
  ["vellum.toml".toList, ".vellum.toml".toList, ".config/vellum.toml".toList]

def path? (tree : Files.Tree) (root : Text) : Option Text :=
  (candidates.map (Path.join root)).find? tree.isFile

/-- The configuration of a project, if it has one. -/
def load (tree : Files.Tree) (root : Text) : Except Error (Option Config) :=
  match path? tree root with
  | none => .ok none
  | some path =>
    match tree.read path with
    | .error fault => .error (.system fault)
    | .ok source => (parse source).map some

def loadOrDefault (tree : Files.Tree) (root : Text) : Except Error Config :=
  (load tree root).map fun config => config.getD default

/-! ## Compilers -/

def options (config : Config) (root : Text) : Options :=
  let output := Path.join root config.output
  ⟨Path.join root config.input, if config.output.isEmpty then output ++ ['/'] else output,
    config.sourceExtension, config.artifactExtension, config.exclude⟩

/-- The directives of the template language and then those of the configuration, all of them
checked. -/
def ruleTable (config : Config) : Except Error RuleTable :=
  let table := RuleTable.builtin.registerAll config.directives
  match table.validate with
  | .ok () => .ok table
  | .error malformed => .error (.rule malformed)

def compiler (config : Config) (root : Text) : Except Error Compiler :=
  config.ruleTable.map fun rules => ⟨config.options root, rules⟩

/-! ## Data -/

inductive Format
  | text
  | json
  | toml
  | yaml
  deriving DecidableEq, Repr

def Format.ofExtension? (extension : Text) : Option Format :=
  if extension = "text".toList ∨ extension = "txt".toList then some .text
  else if extension = "json".toList then some .json
  else if extension = "toml".toList then some .toml
  else if extension = "yaml".toList ∨ extension = "yml".toList then some .yaml
  else none

def Format.read (format : Format) (content : Text) : Except DataFault Datum :=
  let orMalformed (datum : Option Datum) : Except DataFault Datum :=
    match datum with
    | some datum => .ok datum
    | none => .error .malformed
  match format with
  | .text => .ok (.text content)
  | .json => orMalformed (Json.parse content)
  | .yaml => orMalformed (Yaml.parse content)
  | .toml =>
    match Toml.parse content with
    | none => .error .malformed
    | some value =>
      match value.toDatum? with
      | some datum => .ok datum
      | none => .error .notFinite

/-- Reads a data file, which is named as seen from the root of the project. -/
def loadFile (tree : Files.Tree) (root path : Text) : Except Error Datum :=
  match tree.read (Path.join root path) with
  | .error fault => .error (.dataFile path (.unreadable fault))
  | .ok content =>
    let extension := ((Path.extension? (Path.join root path)).getD []).map Char.toLower
    match Format.ofExtension? extension with
    | none => .error (.unsupportedFormat extension)
    | some format =>
      match format.read content with
      | .ok datum => .ok datum
      | .error fault => .error (.dataFile path fault)

/-- Reads data files in the order of their names. -/
def loadFiles (tree : Files.Tree) (root : Text) :
    List (Text × Text) → Except Error (List (Text × Datum))
  | [] => .ok []
  | (name, path) :: files =>
    match loadFile tree root path with
    | .error error => .error error
    | .ok datum => (loadFiles tree root files).map ((name, datum) :: ·)

def loadData (config : Config) (tree : Files.Tree) (root : Text) : Except Error Variables :=
  (loadFiles tree root config.data.entries).map NameMap.ofList

end Config

end Stencil
