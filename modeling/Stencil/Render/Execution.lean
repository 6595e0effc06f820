import Stencil.Render.Scope
import Stencil.Text.Brackets
import Stencil.Text.Markup

/-!
# Running a program

The nodes of a program run one after the other. They write to the layout, bind variables and declare
parents and sections; whatever renders another view goes through `Run.nested`, so that a program can
be studied without knowing what other views do.
-/

namespace Stencil

structure RenderState where
  tree : Files.Tree
  layout : Layout
  scope : Scope
  /-- The views that are being included or imported, the innermost first. -/
  includes : List Text

namespace RenderState

/-- What expressions see. -/
def bindings (s : RenderState) : Bindings := visible s.scope s.layout.imports

def mapLayout (f : Layout → Layout) (s : RenderState) : RenderState :=
  { s with layout := f s.layout }

def mapScope (f : Scope → Scope) (s : RenderState) : RenderState := { s with scope := f s.scope }

end RenderState

/-- A part of a render. -/
abbrev Rendering (α : Type) := Step RenderState α

/-- What a host does with the arguments of a call. -/
abbrev Hook := List Value → Except Error Text

/-- What the program of one view runs with. -/
structure Run where
  view : Text
  evaluate : Evaluator
  hook : Option Hook
  /-- The output of another view. -/
  nested : Text → Rendering Text

namespace Run

def failure (run : Run) (failure : Failure) : Error := .render run.view (.expression failure)

def onLayout (f : Layout → Layout) : Rendering Unit := Step.change (RenderState.mapLayout f)

/-! ## Values -/

/-- The value of a source; a blank source has none. -/
def eval (run : Run) (source : Text) : Rendering Value := fun s =>
  if source.trim.isEmpty then (.ok .undefined, s)
  else
    match run.evaluate source.trim s.bindings with
    | .ok value => (.ok value, s)
    | .error failure => (.error (run.failure failure), s)

def evalAll (run : Run) : List Text → Rendering (List Value)
  | [] => Step.done []
  | source :: sources => do
    let value ← run.eval source
    let values ← run.evalAll sources
    return value :: values

/-- The name that an argument stands for; a blank argument stands for none. -/
def evalName (run : Run) (arg : Option Text) : Rendering (Option Text) :=
  match arg with
  | none => Step.done none
  | some source =>
    if source.trim.isEmpty then Step.done none
    else do return some (← run.eval source).written

/-- What is written for a value: nothing for one that is missing. -/
def display : Value → Text
  | .undefined | .none => []
  | value => value.written

/-! ## Frames -/

/-- Runs something with variables of its own. -/
def inFrame {α : Type} (bindings : List (Text × Value)) (x : Rendering α) : Rendering α := fun s =>
  Step.atEnd x (RenderState.mapScope Scope.pop) (s.mapScope (·.push bindings))

def forEach (body : Rendering Unit) : List (List (Text × Value)) → Rendering Unit
  | [] => Step.done ()
  | bindings :: rest => do
    inFrame bindings body
    forEach body rest

/-- The variables of each round of a loop. A binding of two names takes the key or the number of the
round and the value, any other binding is one name for the value. -/
def rounds? (binding : Text) (value : Value) : Option (List (List (Text × Value))) :=
  let names := (Text.splitOn (· == ',') binding).map Text.trim
  match value with
  | .map entries =>
    some (entries.map fun (key, item) =>
      match names with
      | [first, second] => [(first, key), (second, item)]
      | _ => [(binding.trim, item)])
  | value =>
    value.items?.map fun items => items.zipIdx.map fun (item, number) =>
      match names with
      | [first, second] => [(first, .int number), (second, item)]
      | _ => [(binding.trim, item)]

def rounds (run : Run) (binding : Text) (value : Value) : Rendering (List (List (Text × Value))) :=
  match rounds? binding value with
  | some rounds => Step.done rounds
  | none => Step.fail (run.failure .invalidOperation)

/-! ## Calls -/

def dataBindings (run : Run) (value : Value) : Rendering (List (Text × Value)) :=
  match value with
  | .map entries => Step.done (entries.map fun (key, item) => (key.written, item))
  | value => Step.fail (.render run.view (.dataIsNoMap value.kind))

def bindAll (bindings : List (Text × Value)) : Rendering Unit :=
  Step.change (RenderState.mapScope fun scope =>
    bindings.foldl (fun scope (name, value) => scope.bind name value) scope)

/-- The output of a view that sees the data of an include. -/
def includeWith (run : Run) (target : Text) (data : Option Text) : Rendering Text := do
  match data with
  | some source =>
    let value ← run.eval source
    let bindings ← run.dataBindings value
    bindAll bindings
  | none => Step.done ()
  run.nested target

def includeView (run : Run) (args : List Text) : Rendering Unit := do
  match ← run.evalName args[0]? with
  | none => return ()
  | some target =>
    let output ← inFrame [] (run.includeWith target args[1]?)
    onLayout (·.writeText output)

/-- Keeps the output of another view. -/
def importView (run : Run) (args : List Text) : Rendering Unit := do
  match ← run.evalName args[0]? with
  | none => return ()
  | some target =>
    let chosen ← run.evalName args[1]?
    let output ← run.nested target
    onLayout (·.setImport (chosen.getD target) output)

def callHook (run : Run) (args : List Text) : Rendering Unit := do
  let values ← run.evalAll args
  match run.hook with
  | some hook =>
    let output ← Step.ofExcept (hook values)
    onLayout (·.writeText output)
  | none => return ()

/-- Does something with the name that the first argument stands for. -/
def withName (run : Run) (args : List Text) (f : Text → Layout → Layout) : Rendering Unit := do
  match ← run.evalName args[0]? with
  | none => return ()
  | some name => onLayout (f name)

def perform (run : Run) (operation : Artifact.Call) (args : List Text) : Rendering Unit :=
  match operation with
  | .extend => run.withName args fun name l => l.declareParent name
  | .startSection => run.withName args fun name l => l.openSection name
  | .content => run.withName args fun name l => l.writePlaceholder name
  | .includeView => run.includeView args
  | .importView => run.importView args
  | .hook => run.callHook args

/-! ## Nodes -/

mutual

def node (run : Run) : Artifact.Node → Rendering Unit
  | .text text => onLayout (·.writeText text)
  | .echo expr escape => do
    let text := display (← run.eval expr)
    onLayout (·.writeText (if escape then Markup.escape text else text))
  | .loop iterable binding body => do
    let value ← run.eval iterable
    let rounds ← run.rounds binding value
    forEach (nodes run body) rounds
  | .assign name expr => do
    let value ← run.eval expr
    Step.change (RenderState.mapScope (·.bind name value))
  | .stopSection => onLayout Layout.closeSection
  | .call operation args => run.perform operation (Text.arguments args)

def nodes (run : Run) : List Artifact.Node → Rendering Unit
  | [] => Step.done ()
  | first :: rest => do
    node run first
    nodes run rest

end

end Run

end Stencil
