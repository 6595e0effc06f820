import Stencil.Proofs.Succeeded

/-!
# The programs that a render runs

`Renderer.executed` lists the programs that a render runs, in order: those of the views that it comes
to, as far as they have one. An include or an import that has succeeded has asked for one view at
most, in a state that is known (`Run.includeView_ok`, `Run.importView_ok`).
-/

namespace Stencil

open Listing (after_of_ok)

def Scope.bindAll (scope : Scope) (bindings : List (Text × Value)) : Scope :=
  bindings.foldl (fun scope (name, value) => scope.bind name value) scope

/-! ## Programs -/

namespace Run

section Succeeded

variable {run : Run} {args : List Text} {s t : RenderState}

/-- An include with data has bound the data and then asked for its view. -/
theorem includeWith_ok {target output : Text} {data : Option Text}
    (h : run.includeWith target data s = (.ok output, t)) :
    ∃ bindings,
      run.includeWithRequests target data s = [(target, s.mapScope (·.bindAll bindings))] ∧
      run.nested target (s.mapScope (·.bindAll bindings)) = (.ok output, t) := by
  cases data with
  | none =>
    obtain ⟨_, s', hd, h⟩ := Step.bind_ok h
    obtain rfl : s = s' := (Prod.mk.inj hd).2
    exact ⟨[], rfl, h⟩
  | some source =>
    simp only [includeWith] at h
    obtain ⟨value, s₁, hv, h⟩ := Step.bind_ok h
    obtain ⟨bindings, s₂, hb, h⟩ := Step.bind_ok h
    obtain ⟨_, s₃, ha, h⟩ := Step.bind_ok h
    have asked : run.includeWithRequests target (some source) s = [(target, s₃)] := by
      simp only [includeWithRequests]
      rw [after_of_ok hv, after_of_ok hb, after_of_ok ha]
    obtain rfl := eval_ok hv
    obtain rfl := dataBindings_ok hb
    obtain rfl : _ = s₃ := (Prod.mk.inj ha).2
    exact ⟨bindings, asked, h⟩

/-- An include that names a view has asked for it in a frame of its own and written its output. -/
theorem includeView_ok {u : Unit} (h : run.includeView args s = (.ok u, t)) :
    (run.includeRequests args s = [] ∧ t = s) ∨ ∃ target asked output last bindings,
      run.includeRequests args s = [(target, asked)] ∧
      asked = s.mapScope (fun scope => (scope.push []).bindAll bindings) ∧
      run.nested target asked = (.ok output, last) ∧
      t = (last.mapScope Scope.pop).mapLayout (·.writeText output) := by
  obtain ⟨name, s', hname, h⟩ := Step.bind_ok h
  obtain rfl := evalName_ok hname
  cases name with
  | none => exact .inl ⟨includeRequests_of_none hname, (Prod.mk.inj h).2.symm⟩
  | some target =>
    obtain ⟨output, s₁, ho, h⟩ := Step.bind_ok h
    obtain ⟨last, hl, rfl⟩ := inFrame_ok ho
    obtain ⟨bindings, asked, ran⟩ := includeWith_ok hl
    exact .inr ⟨target, _, output, last, bindings, (includeRequests_of_some hname).trans asked, rfl,
      ran, onLayout_ok h⟩

/-- An import that names a view has asked for it where it stands and kept its output. -/
theorem importView_ok {u : Unit} (h : run.importView args s = (.ok u, t)) :
    (run.importRequests args s = [] ∧ t = s) ∨ ∃ target name output last,
      run.importRequests args s = [(target, s)] ∧ run.nested target s = (.ok output, last) ∧
      t = last.mapLayout (·.setImport name output) := by
  obtain ⟨name, s', hname, h⟩ := Step.bind_ok h
  obtain rfl := evalName_ok hname
  cases name with
  | none => exact .inl ⟨importRequests_of_none hname, (Prod.mk.inj h).2.symm⟩
  | some target =>
    obtain ⟨chosen, s₁, hc, h⟩ := Step.bind_ok h
    obtain rfl := evalName_ok hc
    obtain ⟨output, last, ho, h⟩ := Step.bind_ok h
    exact .inr ⟨target, _, output, last, importRequests_of_some hname hc, ho, onLayout_ok h⟩

end Succeeded

end Run

/-! ## Renders -/

namespace Renderer

variable {r : Renderer}

/-- The program that a render runs when it comes to a view, with the name of the view. -/
def Visit.program? (r : Renderer) (visit : Visit) : Option (Text × Artifact.Program) :=
  match r.program visit.view visit.tree with
  | (.ok program, _) => some (visit.view, program)
  | (.error _, _) => none

def executed (r : Renderer) (view : Text) (data : Variables) (tree : Files.Tree) :
    List (Text × Artifact.Program) :=
  (r.visits view data tree).filterMap (Visit.program? r)

end Renderer

end Stencil
