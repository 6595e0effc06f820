import Stencil.Proofs.Respects

/-!
# What has succeeded

When a part of a render has succeeded, all its parts have. Here is, part by part, which ones these are
and in which states they ran: of a program (`Run.eval_ok` to `Run.inFrame_ok`) and of a render, from the
program of one view (`execute_ok`) and a chain of layouts (`follow_ok`, `chain_ok`) up to a nested view
(`nestedAt_ok`).
-/

namespace Stencil

namespace Step

variable {σ α β : Type}

/-- What succeeds has succeeded in all its parts. -/
theorem bind_ok {x : Step σ α} {f : α → Step σ β} {s u : σ} {b : β}
    (h : (x >>= f) s = (.ok b, u)) : ∃ a t, x s = (.ok a, t) ∧ f a t = (.ok b, u) := by
  replace h : andThen x f s = (.ok b, u) := h
  unfold andThen at h
  cases hx : x s with
  | mk result t =>
    cases result with
    | error e => simp [hx] at h
    | ok a => exact ⟨a, t, rfl, by simpa [hx] using h⟩

theorem bind_of_ok {x : Step σ α} {f : α → Step σ β} {s t : σ} {a : α} (h : x s = (.ok a, t)) :
    (x >>= f) s = f a t := by
  show andThen x f s = f a t
  simp only [andThen, h]

theorem bind_congr {x : Step σ α} {f g : α → Step σ β} {s : σ}
    (h : ∀ a t, x s = (.ok a, t) → f a t = g a t) : (x >>= f) s = (x >>= g) s := by
  show andThen x f s = andThen x g s
  unfold andThen
  cases hx : x s with
  | mk result t =>
    cases result with
    | error e => rfl
    | ok a => exact h a t hx

theorem bind_error {x : Step σ α} {f : α → Step σ β} {s u : σ} {e : Error}
    (h : (x >>= f) s = (.error e, u)) :
    x s = (.error e, u) ∨ ∃ a t, x s = (.ok a, t) ∧ f a t = (.error e, u) := by
  replace h : andThen x f s = (.error e, u) := h
  unfold andThen at h
  cases hx : x s with
  | mk result t =>
    cases result with
    | error other => exact .inl (by simpa [hx] using h)
    | ok a => exact .inr ⟨a, t, rfl, by simpa [hx] using h⟩

theorem exists_of_fst {x : Step σ α} {s : σ} {a : α} (h : (x s).1 = .ok a) :
    ∃ t, x s = (.ok a, t) := ⟨(x s).2, Prod.ext h rfl⟩

end Step

/-! ## Programs -/

namespace Run

variable {run : Run} {s t : RenderState}

theorem eval_ok {source : Text} {value : Value} (h : run.eval source s = (.ok value, t)) :
    s = t := by
  unfold eval at h
  split at h
  · exact (Prod.mk.inj h).2
  · split at h
    · exact (Prod.mk.inj h).2
    · simp at h

theorem evalName_ok {arg name : Option Text} (h : run.evalName arg s = (.ok name, t)) : s = t := by
  cases arg with
  | none => exact (Prod.mk.inj h).2
  | some source =>
    simp only [evalName] at h
    split at h
    · exact (Prod.mk.inj h).2
    · obtain ⟨value, u, hv, hu⟩ := Step.bind_ok h
      exact (eval_ok hv).trans (Prod.mk.inj hu).2

theorem evalAll_ok {sources : List Text} {values : List Value}
    (h : run.evalAll sources s = (.ok values, t)) : s = t := by
  induction sources generalizing s t values with
  | nil => exact (Prod.mk.inj h).2
  | cons source sources ih =>
    obtain ⟨value, u, hv, h⟩ := Step.bind_ok h
    obtain ⟨rest, w, hr, h⟩ := Step.bind_ok h
    obtain rfl := eval_ok hv
    obtain rfl := ih hr
    exact (Prod.mk.inj h).2

theorem rounds_ok {binding : Text} {value : Value} {rounds : List (List (Text × Value))}
    (h : run.rounds binding value s = (.ok rounds, t)) : s = t := by
  unfold Run.rounds at h
  cases hr : rounds? binding value with
  | none => simp [hr, Step.fail] at h
  | some found =>
    simp only [hr] at h
    exact (Prod.mk.inj h).2

theorem dataBindings_ok {value : Value} {bindings : List (Text × Value)}
    (h : run.dataBindings value s = (.ok bindings, t)) : s = t := by
  unfold dataBindings at h
  split at h
  · exact (Prod.mk.inj h).2
  · simp [Step.fail] at h

theorem onLayout_ok {f : Layout → Layout} {u : Unit} (h : onLayout f s = (.ok u, t)) :
    t = s.mapLayout f := (Prod.mk.inj h).2.symm

/-- Something with variables of its own ends by dropping them. -/
theorem inFrame_ok {α : Type} {bindings : List (Text × Value)} {x : Rendering α} {a : α}
    (h : inFrame bindings x s = (.ok a, t)) :
    ∃ u, x (s.mapScope (·.push bindings)) = (.ok a, u) ∧ t = u.mapScope Scope.pop := by
  unfold inFrame Step.atEnd at h
  cases hx : x (s.mapScope (·.push bindings)) with
  | mk result u =>
    simp only [hx] at h
    obtain ⟨rfl, rfl⟩ := Prod.mk.inj h
    exact ⟨u, rfl, rfl⟩

end Run

/-! ## Renders -/

namespace Renderer

variable {r : Renderer} {nested : Text → Text → Rendering Text} {view : Text} {s t : RenderState}

theorem onTree_ok {α : Type} {x : Step Files.Tree α} {a : α} (h : onTree x s = (.ok a, t)) :
    ∃ tree, x s.tree = (.ok a, tree) ∧ t = { s with tree } := by
  unfold onTree at h
  cases hx : x s.tree with
  | mk result tree =>
    rw [hx] at h
    obtain ⟨rfl, rfl⟩ := Prod.mk.inj h
    exact ⟨tree, rfl, rfl⟩

/-- What runs in a pass of its own hands over what the pass wrote. -/
theorem inPass_ok {x : Rendering Unit} {output : List Fragment} (h : inPass x s = (.ok output, t)) :
    ∃ u, x (s.mapLayout Layout.beginPass) = (.ok (), u) ∧ output = u.layout.endPass.1 ∧
      t = u.mapLayout fun l => l.endPass.2 := by
  unfold inPass at h
  cases hx : x (s.mapLayout Layout.beginPass) with
  | mk result u =>
    cases result with
    | error error => simp [hx, Except.map] at h
    | ok _ =>
      simp only [hx] at h
      obtain ⟨output, rfl⟩ := Prod.mk.inj h
      exact ⟨u, rfl, (Except.ok.inj output).symm, rfl⟩

/-- A view has run its program, in a pass. -/
theorem execute_ok {output : List Fragment} (h : r.execute nested view s = (.ok output, t)) :
    ∃ program tree u, r.program view s.tree = (.ok program, tree) ∧
      Run.nodes ⟨view, r.evaluate, r.hook, nested view⟩ program
        (({ s with tree } : RenderState).mapLayout Layout.beginPass) = (.ok (), u) ∧
      output = u.layout.endPass.1 ∧ t = u.mapLayout fun l => l.endPass.2 := by
  obtain ⟨program, s', compiled, run⟩ := Step.bind_ok h
  obtain ⟨tree, found, rfl⟩ := onTree_ok compiled
  obtain ⟨u, ran, rfl, rfl⟩ := inPass_ok run
  exact ⟨program, tree, u, found, ran, rfl, rfl⟩

/-! ### Chains -/

/-- A chain has run its view, and then the layouts above it unless it ends there. -/
theorem follow_ok {fuel : Nat} {visited : List Text} {output : List Fragment}
    (h : r.follow nested (fuel + 1) visited view s = (.ok output, t)) :
    ∃ own u, r.execute nested view s = (.ok own, u) ∧
      ((r.next? visited u = none ∧ output = own ∧ t = u.mapLayout (·.setParent none)) ∨
        ∃ parent, r.next? visited u = some parent ∧
          r.follow nested fuel (parent :: visited) parent
            (u.mapLayout fun l => (l.setParent none).setLayer (l.layer + 1)) = (.ok output, t)) := by
  rw [follow_succ] at h
  cases he : r.execute nested view s with
  | mk result u =>
    cases result with
    | error error => simp [he] at h
    | ok own =>
      rw [he] at h
      refine ⟨own, u, rfl, ?_⟩
      have ended (h : (Except.ok own, u.mapLayout (·.setParent none)) =
          ((.ok output, t) : Except Error (List Fragment) × RenderState)) :
          output = own ∧ t = u.mapLayout (·.setParent none) := by
        obtain ⟨same, rfl⟩ := Prod.mk.inj h
        exact ⟨(Except.ok.inj same).symm, rfl⟩
      cases declared : u.layout.parent with
      | none =>
        simp only [declared] at h
        exact .inl ⟨by simp [next?, declared], ended h⟩
      | some parent =>
        simp only [declared] at h
        split at h
        · simp at h
        · next fresh =>
          split at h
          · next there =>
            exact .inr ⟨parent, by simp [next?, declared, fresh, there], h⟩
          · next missing =>
            exact .inl ⟨by simp [next?, declared, missing], ended h⟩

theorem chain_ok {output : List Fragment} (h : r.chain nested view s = (.ok output, t)) :
    ∃ u, r.follow nested r.maxLayouts [view] view (s.mapLayout (·.setParent none)) =
        (.ok output, u) ∧
      t = u.mapLayout fun l => (l.setLayer s.layout.layer).setParent s.layout.parent := by
  rw [chain_eq] at h
  cases hf : r.follow nested r.maxLayouts [view] view (s.mapLayout (·.setParent none)) with
  | mk result u =>
    cases result with
    | error error => simp [hf] at h
    | ok followed =>
      simp only [hf] at h
      obtain ⟨same, rfl⟩ := Prod.mk.inj h
      obtain rfl := Except.ok.inj same
      exact ⟨u, rfl, rfl⟩

/-! ### Nested views -/

/-- The text of a nested view is that of its fragments with its own regions filled in. -/
theorem inNested_ok {target output : Text} {x : Rendering (List Fragment)}
    (h : inNested target x s = (.ok output, t)) :
    ∃ fragments u,
      x { s with layout := s.layout.enterScope.2, includes := target :: s.includes } =
        (.ok fragments, u) ∧
      output = u.layout.resolve fragments ∧
      t = { u with
        layout := u.layout.leaveScope s.layout.enterScope.1, includes := u.includes.tail } := by
  simp only [inNested] at h
  cases hx : x { s with layout := s.layout.enterScope.2, includes := target :: s.includes } with
  | mk result u =>
    cases result with
    | error error => simp [hx, Except.map] at h
    | ok fragments =>
      simp only [hx] at h
      obtain ⟨text, rfl⟩ := Prod.mk.inj h
      exact ⟨fragments, u, rfl, (Except.ok.inj text).symm, rfl⟩

theorem nestedAt_zero (r : Renderer) (caller target : Text) (s : RenderState) :
    r.nestedAt 0 caller target s = (.error (.render caller (.includesItself target)), s) := rfl

def run (r : Renderer) (room : Nat) (view : Text) : Run :=
  ⟨view, r.evaluate, r.hook, r.nestedAt room view⟩

/-- A nested view has run its chain. -/
theorem nestedAt_ok {room : Nat} {caller target output : Text}
    (h : r.nestedAt (room + 1) caller target s = (.ok output, t)) :
    target ∉ s.includes ∧ ∃ fragments u,
      r.chain (r.nestedAt room) target
          { s with layout := s.layout.enterScope.2, includes := target :: s.includes } =
        (.ok fragments, u) ∧
      output = u.layout.resolve fragments ∧
      t = { u with
        layout := u.layout.leaveScope s.layout.enterScope.1, includes := u.includes.tail } := by
  rw [nestedAt_succ] at h
  split at h
  · simp at h
  · next fresh => exact ⟨fresh, inNested_ok h⟩

end Renderer

end Stencil
