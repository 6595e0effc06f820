import Stencil.Error
import Stencil.Expr.Eval
import Stencil.Layout.Resolve

/-!
# Scopes

The variables that expressions see: the data of the render at the bottom, and one frame on top of it
for each round of a loop and each include that is running. A frame hides the ones below it; the
outputs of imported views are visible as `imports` where nothing else has that name.
-/

namespace Stencil

/-- Variables in frames, of which there is always one. -/
structure Scope where
  top : NameMap Value
  /-- The frames below, the upper ones first. -/
  below : List (NameMap Value)

namespace Scope

def ofData (data : Variables) : Scope := ⟨data.mapValues Value.ofDatum, []⟩

def push (scope : Scope) (bindings : List (Text × Value)) : Scope :=
  ⟨NameMap.ofList bindings, scope.top :: scope.below⟩

/-- Removes the frame on top, unless it is the only one. -/
def pop (scope : Scope) : Scope :=
  match scope.below with
  | [] => scope
  | frame :: frames => ⟨frame, frames⟩

def bind (scope : Scope) (name : Text) (value : Value) : Scope :=
  { scope with top := scope.top.insert name value }

/-- The frames, the upper ones first. -/
def frames (scope : Scope) : List (NameMap Value) := scope.top :: scope.below

def find? (scope : Scope) (name : Text) : Option Value :=
  scope.frames.findSome? fun frame => frame.find? name

end Scope

/-- The variable of the outputs of imported views. -/
def importsName : Text := "imports".toList

def importsValue (imports : NameMap Text) : Value :=
  .map (imports.entries.map fun (name, content) => (.ofText name, .ofText content))

/-- What expressions see. -/
def visible (scope : Scope) (imports : NameMap Text) : Bindings := fun name =>
  match scope.find? name with
  | some value => some value
  | none => if name = importsName then some (importsValue imports) else none

end Stencil
