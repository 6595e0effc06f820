import Stencil.Render.Renderer

/-!
# The views that a render comes to

A program does not say which programs run because of it: the names of the views that it includes and
imports are values of expressions, and a layout is declared as the program runs.
`Run.nodesRequests` lists the nested views that a program asks for from a state on, each with the
state in which it does. `Renderer.visits` lists the views that a whole render comes to, in order: the
views of its chain, each with those nested in it behind, and each with the files as they are when its
program is looked for. The lists end where the render fails.
-/

namespace Stencil

/-- Something that is listed of a part of a render that starts in a state. -/
abbrev Listing (β : Type) := RenderState → List β

/-- What is listed after something that lists nothing itself and may fail. -/
def Listing.after {α β : Type} (x : Rendering α) (f : α → Listing β) : Listing β := fun s =>
  match x s with
  | (.ok a, s) => f a s
  | (.error _, _) => []

theorem Listing.after_of_ok {α β : Type} {x : Rendering α} {a : α} {s t : RenderState}
    (h : x s = (.ok a, t)) (f : α → Listing β) : Listing.after x f s = f a t := by
  simp only [Listing.after, h]

theorem Listing.exists_of_mem_after {α β : Type} {x : Rendering α} {f : α → Listing β}
    {s : RenderState} {b : β} (h : b ∈ Listing.after x f s) :
    ∃ a t, x s = (.ok a, t) ∧ b ∈ f a t := by
  unfold Listing.after at h
  split at h
  · next a t hx => exact ⟨a, t, hx, h⟩
  · simp at h

/-! ## Programs -/

namespace Run

/-- The nested views that a part of a render asks for, each with the state in which it does. -/
abbrev Requests := Listing (Text × RenderState)

open Listing (after)

/-- An include with data asks for its view when the data has been bound. -/
def includeWithRequests (run : Run) (target : Text) : Option Text → Requests
  | some source =>
    after (run.eval source) fun value =>
      after (run.dataBindings value) fun bindings =>
        after (bindAll bindings) fun _ s => [(target, s)]
  | none => fun s => [(target, s)]

def includeRequests (run : Run) (args : List Text) : Requests :=
  after (run.evalName args[0]?) fun
    | none => fun _ => []
    | some target => fun s => run.includeWithRequests target args[1]? (s.mapScope (·.push []))

def importRequests (run : Run) (args : List Text) : Requests :=
  after (run.evalName args[0]?) fun
    | none => fun _ => []
    | some target => after (run.evalName args[1]?) fun _ s => [(target, s)]

section Named

variable {run : Run} {args : List Text} {target : Text} {s t : RenderState}

theorem includeRequests_of_none (h : run.evalName args[0]? s = (.ok none, t)) :
    run.includeRequests args s = [] := Listing.after_of_ok h _

theorem includeRequests_of_some (h : run.evalName args[0]? s = (.ok (some target), t)) :
    run.includeRequests args s =
      run.includeWithRequests target args[1]? (t.mapScope (·.push [])) := Listing.after_of_ok h _

theorem importRequests_of_none (h : run.evalName args[0]? s = (.ok none, t)) :
    run.importRequests args s = [] := Listing.after_of_ok h _

theorem importRequests_of_some {chosen : Option Text} {u : RenderState}
    (h : run.evalName args[0]? s = (.ok (some target), t))
    (hc : run.evalName args[1]? t = (.ok chosen, u)) :
    run.importRequests args s = [(target, u)] :=
  (Listing.after_of_ok h _).trans (Listing.after_of_ok hc _)

end Named

/-- Only includes and imports ask for views. -/
def performRequests (run : Run) (operation : Artifact.Call) (args : List Text) : Requests :=
  match operation with
  | .includeView => run.includeRequests args
  | .importView => run.importRequests args
  | _ => fun _ => []

/-- Each round of a loop asks for what its body does with the variables of the round. -/
def forEachRequests (body : Rendering Unit) (requests : Requests) :
    List (List (Text × Value)) → Requests
  | [] => fun _ => []
  | bindings :: rest => fun s =>
    requests (s.mapScope (·.push bindings)) ++
      after (inFrame bindings body) (fun _ => forEachRequests body requests rest) s

mutual

def nodeRequests (run : Run) : Artifact.Node → Requests
  | .loop iterable binding body =>
    after (run.eval iterable) fun value =>
      after (run.rounds binding value) fun rounds =>
        forEachRequests (nodes run body) (nodesRequests run body) rounds
  | .call operation args => run.performRequests operation (Text.arguments args)
  | _ => fun _ => []

def nodesRequests (run : Run) : List Artifact.Node → Requests
  | [] => fun _ => []
  | first :: rest => fun s =>
    nodeRequests run first s ++ after (node run first) (fun _ => nodesRequests run rest) s

end

end Run

/-! ## Renders -/

namespace Renderer

open Listing (after)

/-- A view that a render comes to, with the files as they are then. -/
structure Visit where
  view : Text
  tree : Files.Tree
  deriving DecidableEq, Repr

/-- The layout with which a chain goes on behind some views, if it does. -/
def next? (r : Renderer) (visited : List Text) (s : RenderState) : Option Text :=
  match s.layout.parent with
  | none => none
  | some parent =>
    if visited.contains parent then none
    else if r.compiler.has s.tree parent then some parent
    else none

/-- A view and the views nested in it. -/
def executeVisits (r : Renderer) (nested : Text → Text → Rendering Text)
    (visits : Text → Text → Listing Visit) (view : Text) : Listing Visit := fun s =>
  ⟨view, s.tree⟩ :: after (onTree (r.program view)) (fun program s =>
    (Run.nodesRequests ⟨view, r.evaluate, r.hook, nested view⟩ program
      (s.mapLayout Layout.beginPass)).flatMap fun (target, s) => visits view target s) s

/-- A view and the layouts above it. -/
def followVisits (r : Renderer) (nested : Text → Text → Rendering Text)
    (visits : Text → Text → Listing Visit) : Nat → List Text → Text → Listing Visit
  | 0, _, _ => fun _ => []
  | fuel + 1, visited, view => fun s =>
    r.executeVisits nested visits view s ++ after (r.execute nested view) (fun _ s =>
      match r.next? visited s with
      | none => []
      | some parent =>
        r.followVisits nested visits fuel (parent :: visited) parent
          (s.mapLayout fun l => (l.setParent none).setLayer (l.layer + 1))) s

/-- Where a chain goes on, the next layout follows the view. -/
theorem followVisits_of_execute {r : Renderer} {nested : Text → Text → Rendering Text}
    {view : Text} {own : List Fragment} {s u : RenderState}
    (run : r.execute nested view s = (.ok own, u)) (visits : Text → Text → Listing Visit) (fuel : Nat)
    (visited : List Text) :
    r.followVisits nested visits (fuel + 1) visited view s =
      r.executeVisits nested visits view s ++
        match r.next? visited u with
        | none => []
        | some parent =>
          r.followVisits nested visits fuel (parent :: visited) parent
            (u.mapLayout fun l => (l.setParent none).setLayer (l.layer + 1)) := by
  simp only [followVisits, Listing.after_of_ok run]

/-- The views of a chain, which starts without a parent. -/
def chainVisits (r : Renderer) (nested : Text → Text → Rendering Text)
    (visits : Text → Text → Listing Visit) (view : Text) : Listing Visit := fun s =>
  r.followVisits nested visits r.maxLayouts [view] view (s.mapLayout (·.setParent none))

/-- The views of a nested view, when `room` more views can be nested. -/
def nestedVisitsAt (r : Renderer) : Nat → Text → Text → Listing Visit
  | 0, _, _ => fun _ => []
  | room + 1, _, target => fun s =>
    if target ∈ s.includes then []
    else
      r.chainVisits (r.nestedAt room) (nestedVisitsAt r room) target
        { s with layout := s.layout.enterScope.2, includes := target :: s.includes }

theorem nestedVisitsAt_succ (r : Renderer) (room : Nat) (caller target : Text) (s : RenderState) :
    r.nestedVisitsAt (room + 1) caller target s =
      if target ∈ s.includes then []
      else
        r.chainVisits (r.nestedAt room) (r.nestedVisitsAt room) target
          { s with layout := s.layout.enterScope.2, includes := target :: s.includes } := rfl

def visits (r : Renderer) (view : Text) (data : Variables) (tree : Files.Tree) : List Visit :=
  r.chainVisits (r.nestedAt maxIncludes) (r.nestedVisitsAt maxIncludes) view (start data tree)

end Renderer

end Stencil
