import Stencil.Project.Compiler
import Stencil.Render.Execution

/-!
# Rendering

A view is rendered by running the artifact of its source, which is brought up to date first, and
then the artifacts of the layouts that it extends, one after the other. The output of the last one
counts, with the sections of all of them filled in.

* `Renderer.execute` runs the artifact of one view.
* `Renderer.follow` goes up a chain of layouts, `Renderer.chain` does so from its first view.
* `Renderer.nestedAt` renders a view inside another. How deep views can be nested is bounded by
  `room`.
* `Renderer.render` renders a view with data.
-/

namespace Stencil

structure Renderer where
  compiler : Compiler
  evaluate : Evaluator
  /-- What calls of the host do; without it they do nothing. -/
  hook : Option Hook
  /-- The number of layouts after which a chain is given up. -/
  maxLayouts : Nat

/-- The number of views that can be nested in one another. -/
def maxIncludes : Nat := 64

namespace Renderer

def onTree {α : Type} (x : Step Files.Tree α) : Rendering α := fun s =>
  match x s.tree with
  | (result, tree) => (result, { s with tree })

/-- The program of a view, whose artifact is brought up to date first. -/
def program (r : Renderer) (view : Text) : Step Files.Tree Artifact.Program := do
  let report ← r.compiler.compileView false view
  let tree ← Step.state
  match tree.read report.files.artifact with
  | .error fault => Step.fail (.system fault)
  | .ok source =>
    match Artifact.parse source with
    | .ok program => return program
    | .error malformed => Step.fail (.artifact report.files.artifact malformed)

/-- Runs something in a pass of its own and answers what the pass wrote. -/
def inPass (x : Rendering Unit) : Rendering (List Fragment) := fun s =>
  match x (s.mapLayout Layout.beginPass) with
  | (result, s) =>
    let (output, layout) := s.layout.endPass
    (result.map fun _ => output, { s with layout })

def execute (r : Renderer) (nested : Text → Text → Rendering Text) (view : Text) :
    Rendering (List Fragment) := do
  let program ← onTree (r.program view)
  inPass (Run.nodes ⟨view, r.evaluate, r.hook, nested view⟩ program)

/-- The parent that has been declared, which is forgotten. -/
def takeParent : Rendering (Option Text) := fun s =>
  (.ok s.layout.parent, s.mapLayout (·.setParent none))

/-- Runs a view and then the layouts above it. `visited` are the views of the chain, the last first.
A layout whose source is missing ends the chain. -/
def follow (r : Renderer) (nested : Text → Text → Rendering Text) :
    Nat → List Text → Text → Rendering (List Fragment)
  | 0, _, view => Step.fail (.endlessLayouts view)
  | fuel + 1, visited, view => do
    let output ← r.execute nested view
    match ← takeParent with
    | none => return output
    | some parent =>
      if parent ∈ visited then Step.fail (.layoutCycle parent)
      else
        let s ← Step.state
        if r.compiler.has s.tree parent then
          Run.onLayout fun l => l.setLayer (l.layer + 1)
          follow r nested fuel (parent :: visited) parent
        else return output

/-- The output of a view and the layouts above it. The parent and the layer of the caller are set
aside and come back unless the chain fails. -/
def chain (r : Renderer) (nested : Text → Text → Rendering Text) (view : Text) :
    Rendering (List Fragment) := do
  let outer ← takeParent
  let s ← Step.state
  let output ← r.follow nested r.maxLayouts [view] view
  Run.onLayout fun l => (l.setLayer s.layout.layer).setParent outer
  return output

/-- Runs something with a view on the stack of nested views and regions of its own. -/
def inNested (target : Text) (x : Rendering (List Fragment)) : Rendering Text := fun s =>
  let (regions, layout) := s.layout.enterScope
  match x { s with layout, includes := target :: s.includes } with
  | (result, s) =>
    (result.map s.layout.resolve,
      { s with layout := s.layout.leaveScope regions, includes := s.includes.tail })

/-- The output of a view inside another, when `room` more views can be nested. -/
def nestedAt (r : Renderer) : Nat → Text → Text → Rendering Text
  | 0, caller, target => Step.fail (.render caller (.includesItself target))
  | room + 1, caller, target => fun s =>
    if target ∈ s.includes then (.error (.render caller (.includesItself target)), s)
    else inNested target (r.chain (nestedAt r room) target) s

def nested (r : Renderer) (caller target : Text) : Rendering Text := fun s =>
  r.nestedAt (maxIncludes - s.includes.length) caller target s

def start (data : Variables) (tree : Files.Tree) : RenderState :=
  ⟨tree, Layout.initial, Scope.ofData data, []⟩

/-- Renders a view with data. Artifacts that are not up to date are written on the way. -/
def render (r : Renderer) (view : Text) (data : Variables) : Step Files.Tree Text := fun tree =>
  match r.chain (r.nestedAt maxIncludes) view (start data tree) with
  | (.ok output, s) => (.ok (s.layout.finish output).1, s.tree)
  | (.error error, s) => (.error error, s.tree)

end Renderer

end Stencil
