import Stencil.Artifact.Program
import Stencil.Expr.Token
import Stencil.Expr.Value
import Stencil.Files.Tree
import Stencil.Rule

/-!
# Errors

Everything that can go wrong, by its cause. `Error.message` words an error, `Error.code` names its
kind and `Error.help` says what to do about it.

`Step` is a computation that may fail and that changes a state. The state is kept when it fails.
-/

namespace Stencil

inductive DirectoryFault
  | unreadable (fault : Files.Fault)
  | inputIsNoDirectory
  | inputReadOnly
  | outputWithoutSeparator
  deriving DecidableEq, Repr

def DirectoryFault.message : DirectoryFault → Text
  | .unreadable fault => fault.message
  | .inputIsNoDirectory => "input path is not a directory".toList
  | .inputReadOnly => "input directory is not writable".toList
  | .outputWithoutSeparator => "output directory must end with a path separator".toList

inductive RenderFault
  /-- An expression has no value. -/
  | expression (failure : Failure)
  /-- A view is rendered inside itself, or too deep. -/
  | includesItself (target : Text)
  /-- The data of an include is no map. -/
  | dataIsNoMap (kind : Value.Kind)
  /-- The host refuses a call. -/
  | host (reason : Text)
  deriving DecidableEq, Repr

def RenderFault.message : RenderFault → Text
  | .expression failure => failure.message
  | .includesItself target => ['\x60'] ++ target ++ "` includes itself".toList
  | .dataIsNoMap kind => "include data must be a map, got ".toList ++ kind.name
  | .host reason => reason

inductive ConfigFault
  | malformed
  | excludePattern (pattern : Text)
  deriving DecidableEq, Repr

inductive DataFault
  | unreadable (fault : Files.Fault)
  | malformed
  | notFinite
  deriving DecidableEq, Repr

inductive Error
  | system (fault : Files.Fault)
  | directory (path : Text) (fault : DirectoryFault)
  | sourceNotFound (view path : Text)
  | rule (malformed : Rule.Malformed)
  | artifact (path : Text) (malformed : Artifact.Malformed)
  | render (view : Text) (fault : RenderFault)
  | layoutCycle (view : Text)
  /-- A chain of layouts goes on for longer than a render follows it. -/
  | endlessLayouts (view : Text)
  | config (fault : ConfigFault)
  | dataFile (path : Text) (fault : DataFault)
  | unsupportedFormat (extension : Text)
  deriving DecidableEq, Repr

namespace Error

def backquoted (text : Text) : Text := ['\x60'] ++ text ++ ['\x60']

/-- The wording of an error, with `reader` for what the reader of a foreign format has to say. -/
def messageWith (reader : Text) : Error → Text
  | .system fault => fault.message
  | .directory path fault =>
    "invalid view directory ".toList ++ backquoted path ++ ": ".toList ++ fault.message
  | .sourceNotFound view path =>
    "view ".toList ++ backquoted view ++ " not found at ".toList ++ backquoted path
  | .rule malformed =>
    "invalid directive pattern ".toList ++ backquoted malformed.pattern ++ ": ".toList ++
      malformed.fault.message
  | .artifact path malformed =>
    "malformed artifact ".toList ++ backquoted path ++ " at line ".toList ++
      Text.ofNat malformed.line ++ ": ".toList ++ malformed.fault.message
  | .render view fault =>
    "failed to render view ".toList ++ backquoted view ++ ": ".toList ++ fault.message
  | .layoutCycle view =>
    "layout cycle detected: ".toList ++ backquoted view ++ " extends itself".toList
  | .endlessLayouts view =>
    "the layouts of ".toList ++ backquoted view ++ " never end".toList
  | .config .malformed => "failed to parse config file: ".toList ++ reader
  | .config (.excludePattern pattern) =>
    "failed to parse config file: invalid exclude pattern ".toList ++ backquoted pattern ++
      ": ".toList ++ reader
  | .dataFile path fault =>
    "failed to load data file ".toList ++ backquoted path ++ ": ".toList ++
      match fault with
      | .unreadable fault => fault.message
      | .malformed => reader
      | .notFinite => "contains a non-finite float".toList
  | .unsupportedFormat extension =>
    "unsupported data file format: ".toList ++ backquoted extension

def message (e : Error) : Text := e.messageWith "it cannot be read".toList

/-- The name of the kind of an error. -/
def code : Error → Text
  | .system _ => "vellum::io_error".toList
  | .directory _ _ => "vellum::directory".toList
  | .sourceNotFound _ _ => "vellum::source_not_found".toList
  | .rule _ => "vellum::pattern".toList
  | .artifact _ _ => "vellum::artifact_syntax".toList
  | .render _ _ => "vellum::render".toList
  | .layoutCycle _ | .endlessLayouts _ => "vellum::layout_cycle".toList
  | .config _ => "vellum::config_parse".toList
  | .dataFile _ _ => "vellum::data_file".toList
  | .unsupportedFormat _ => "vellum::unsupported_format".toList

def help : Error → Option Text
  | .system _ | .render _ _ | .dataFile _ _ => none
  | .directory _ _ =>
    some ("the input directory must exist and be writable, ".toList ++
      "and the output directory must end with `/`".toList)
  | .sourceNotFound _ _ =>
    some "check the view name and the configured input directory and source extension".toList
  | .rule _ =>
    some "patterns support `%s`, `%?`, `%*`, `%+`, `%b`, `%^`, `%n` and `%%`".toList
  | .artifact _ _ => some "recompile the view with `vellum compile --force`".toList
  | .layoutCycle _ | .endlessLayouts _ =>
    some "remove the `@extends` declaration that points back into the chain".toList
  | .config _ =>
    some ("check that vellum.toml is valid TOML with ".toList ++
      "[views], [data] and/or [[directives]] sections".toList)
  | .unsupportedFormat _ => some "supported formats: text, json, toml, yaml, yml".toList

end Error

/-! ## Steps -/

/-- A computation that may fail and that changes a state. -/
def Step (σ α : Type) := σ → Except Error α × σ

namespace Step

variable {σ τ α β : Type}

def done (a : α) : Step σ α := fun s => (.ok a, s)

def fail (e : Error) : Step σ α := fun s => (.error e, s)

/-- One computation and then, unless it fails, the next. -/
def andThen (x : Step σ α) (f : α → Step σ β) : Step σ β := fun s =>
  match x s with
  | (.ok a, s) => f a s
  | (.error e, s) => (.error e, s)

instance : Monad (Step σ) where
  pure := done
  bind := andThen

def state : Step σ σ := fun s => (.ok s, s)

def change (f : σ → σ) : Step σ Unit := fun s => (.ok (), f s)

def ofExcept (x : Except Error α) : Step σ α := fun s => (x, s)

/-- Does something at the end, whether the computation fails or not. -/
def atEnd (x : Step σ α) (f : σ → σ) : Step σ α := fun s =>
  match x s with
  | (result, s) => (result, f s)

end Step

end Stencil
