import Stencil.Proofs.Discovery
import Stencil.Proofs.Executed

/-!
# The stack of nested views

A render keeps the names of the views that it is including or importing on a stack. The stack is
passed on through the programs of all views, through loops and along chains of layouts, each of
which can fail in many places. `Renderer.Reaches` says which parts of a render are run, from which
states on, and inside which nested views. Proved here:

* `nestedAt_keeps`: whatever becomes of a nested view, the stack is afterwards what it was before,
  and so it is with programs (`nodes_keeps`) and chains (`chain_keeps`);
* `Run.perform_request`, `nestedAt_enter`: an include or an import comes to what the view that it asks
  for comes to, and that to what its chain comes to, from the states that `Renderer.Reaches` says;
* `nesting_bounded`: wherever a render is, the stack has just the views inside which it is; these
  are all different and no more than `maxIncludes`. A view is refused without a look at the files
  just when it is on the stack or the stack is full.
-/

namespace Stencil

open Step

/-! ## Keeping the stack -/

/-- The stack of nested views is in the end what it was, also after a failure. -/
def Keeps {α : Type} (x : Rendering α) : Prop := ∀ s, (x s).2.includes = s.includes

theorem keeps_fail {α : Type} (error : Error) : Keeps (fail error : Rendering α) := fun _ => rfl

theorem Keeps.includes_eq {α : Type} {x : Rendering α} (h : Keeps x) {s t : RenderState}
    {result : Except Error α} (ran : x s = (result, t)) : t.includes = s.includes := by
  have kept := h s
  rwa [ran] at kept

theorem keeps_bind {α β : Type} {x : Rendering α} {f : α → Rendering β} (hx : Keeps x)
    (hf : ∀ a, Keeps (f a)) : Keeps (x >>= f) := by
  intro s
  show (andThen x f s).2.includes = s.includes
  unfold andThen
  cases hs : x s with
  | mk result t =>
    have before := hx.includes_eq hs
    cases result with
    | error error => exact before
    | ok a => exact (hf a t).trans before

/-- A state and itself, in which these views are on the stack. -/
def Inside (stack : List Text) (s t : RenderState) : Prop := s = t ∧ s.includes = stack

theorem Keeps.respects {α : Type} {x : Rendering α} (h : Keeps x) (stack : List Text) :
    Respects (Inside stack) x := by
  rintro s _ ⟨rfl, hs⟩
  exact ⟨rfl, rfl, (h s).trans hs⟩

theorem keeps_of_respects {α : Type} {x : Rendering α}
    (h : ∀ stack, Respects (Inside stack) x) : Keeps x :=
  fun s => (h s.includes s s ⟨rfl, rfl⟩).2.2

theorem inside_congruence (stack : List Text) : Run.Congruence (Inside stack) where
  bindings _ _ h := congrArg RenderState.bindings h.1
  mapScope _ _ f h := ⟨congrArg (RenderState.mapScope f) h.1, h.2⟩
  writeText _ _ _ h := ⟨congrArg (RenderState.mapLayout _) h.1, h.2⟩
  writePlaceholder _ _ _ h := ⟨congrArg (RenderState.mapLayout _) h.1, h.2⟩
  declareParent _ _ _ h := ⟨congrArg (RenderState.mapLayout _) h.1, h.2⟩
  openSection _ _ _ h := ⟨congrArg (RenderState.mapLayout _) h.1, h.2⟩
  closeSection _ _ h := ⟨congrArg (RenderState.mapLayout _) h.1, h.2⟩
  setImport _ _ _ _ h := ⟨congrArg (RenderState.mapLayout _) h.1, h.2⟩

namespace Run

section Nested

variable (run : Run) (hn : ∀ target, Keeps (run.nested target))

include hn

theorem node_keeps (node : Artifact.Node) : Keeps (Run.node run node) :=
  keeps_of_respects fun stack =>
    node_respects (inside_congruence stack) (fun target => (hn target).respects stack) node

theorem nodes_keeps (program : List Artifact.Node) : Keeps (Run.nodes run program) :=
  keeps_of_respects fun stack =>
    nodes_respects (inside_congruence stack) (fun target => (hn target).respects stack) program

end Nested

theorem inFrame_keeps {body : Rendering Unit} (hb : Keeps body) (bindings : List (Text × Value)) :
    Keeps (inFrame bindings body) :=
  keeps_of_respects fun stack =>
    inFrame_respects (inside_congruence stack) bindings (hb.respects stack)

theorem forEach_keeps {body : Rendering Unit} (hb : Keeps body)
    (rounds : List (List (Text × Value))) : Keeps (forEach body rounds) :=
  keeps_of_respects fun stack =>
    forEach_respects (inside_congruence stack) (hb.respects stack) rounds

section Requests

variable {run : Run} {args : List Text} {s u : RenderState} {target : Text}

theorem includes_of_mem_includeWithRequests {name : Text} {data : Option Text}
    (h : (target, u) ∈ run.includeWithRequests name data s) : u.includes = s.includes := by
  cases data with
  | none =>
    obtain ⟨-, rfl⟩ := Prod.mk.inj (List.mem_singleton.mp h)
    rfl
  | some source =>
    obtain ⟨value, s₁, hv, h⟩ := Listing.exists_of_mem_after h
    obtain ⟨bindings, s₂, hb, h⟩ := Listing.exists_of_mem_after h
    obtain ⟨_, s₃, ha, h⟩ := Listing.exists_of_mem_after h
    obtain rfl := eval_ok hv
    obtain rfl := dataBindings_ok hb
    obtain rfl : _ = s₃ := (Prod.mk.inj ha).2
    obtain ⟨-, rfl⟩ := Prod.mk.inj (List.mem_singleton.mp h)
    rfl

theorem includes_of_mem_includeRequests (h : (target, u) ∈ run.includeRequests args s) :
    u.includes = s.includes := by
  obtain ⟨name, s', hname, h⟩ := Listing.exists_of_mem_after h
  obtain rfl := evalName_ok hname
  cases name with
  | none => simp at h
  | some name => exact includes_of_mem_includeWithRequests (s := s.mapScope (·.push [])) h

theorem includes_of_mem_importRequests (h : (target, u) ∈ run.importRequests args s) :
    u.includes = s.includes := by
  obtain ⟨name, s', hname, h⟩ := Listing.exists_of_mem_after h
  obtain rfl := evalName_ok hname
  cases name with
  | none => simp at h
  | some name =>
    obtain ⟨chosen, s', hchosen, h⟩ := Listing.exists_of_mem_after h
    obtain rfl := evalName_ok hchosen
    obtain ⟨-, rfl⟩ := Prod.mk.inj (List.mem_singleton.mp h)
    rfl

/-- What comes before the call of another view leaves the stack alone. -/
theorem includes_of_mem_performRequests {operation : Artifact.Call}
    (h : (target, u) ∈ run.performRequests operation args s) : u.includes = s.includes := by
  cases operation with
  | includeView => exact includes_of_mem_includeRequests h
  | importView => exact includes_of_mem_importRequests h
  | _ => simp [performRequests] at h

/-! ### What a call makes of the view that it asks for -/

theorem includeWith_request {name : Text} {data : Option Text}
    (h : (target, u) ∈ run.includeWithRequests name data s) (nested : Text → Rendering Text) :
    Run.includeWith { run with nested } name data s = nested target u := by
  cases data with
  | none =>
    obtain ⟨rfl, rfl⟩ := Prod.mk.inj (List.mem_singleton.mp h)
    rfl
  | some source =>
    obtain ⟨value, s₁, hv, h⟩ := Listing.exists_of_mem_after h
    obtain ⟨bindings, s₂, hb, h⟩ := Listing.exists_of_mem_after h
    obtain ⟨_, s₃, ha, h⟩ := Listing.exists_of_mem_after h
    obtain ⟨rfl, rfl⟩ := Prod.mk.inj (List.mem_singleton.mp h)
    simp only [includeWith]
    exact (Step.bind_of_ok hv).trans ((Step.bind_of_ok hb).trans (Step.bind_of_ok ha))

theorem includeView_request (h : (target, u) ∈ run.includeRequests args s)
    (nested : Text → Rendering Text) :
    Run.includeView { run with nested } args s =
      match nested target u with
      | (.ok output, t) => (.ok (), (t.mapScope Scope.pop).mapLayout (·.writeText output))
      | (.error error, t) => (.error error, t.mapScope Scope.pop) := by
  obtain ⟨name, s', hname, h⟩ := Listing.exists_of_mem_after h
  cases name with
  | none => simp at h
  | some name =>
    refine (Step.bind_of_ok hname).trans ?_
    have asked := includeWith_request (s := s'.mapScope (·.push [])) h nested
    simp only [bind, Step.andThen, inFrame, Step.atEnd, asked]
    cases nested target u with
    | mk result t => cases result <;> rfl

theorem importView_request (h : (target, u) ∈ run.importRequests args s) :
    ∃ name, ∀ nested : Text → Rendering Text,
      Run.importView { run with nested } args s =
        match nested target u with
        | (.ok output, t) => (.ok (), t.mapLayout (·.setImport name output))
        | (.error error, t) => (.error error, t) := by
  obtain ⟨name, s', hname, h⟩ := Listing.exists_of_mem_after h
  cases name with
  | none => simp at h
  | some name =>
    obtain ⟨chosen, s₁, hchosen, h⟩ := Listing.exists_of_mem_after h
    obtain ⟨rfl, rfl⟩ := Prod.mk.inj (List.mem_singleton.mp h)
    refine ⟨chosen.getD target, fun nested => ?_⟩
    refine (Step.bind_of_ok hname).trans ((Step.bind_of_ok hchosen).trans ?_)
    simp only [bind, Step.andThen]
    cases nested target u with
    | mk result t => cases result <;> rfl

/-- A call that asks for a view comes to what that view comes to from the state in which it is asked
for, whatever renders nested views. -/
theorem perform_request {operation : Artifact.Call}
    (h : (target, u) ∈ run.performRequests operation args s) :
    ∃ (finish : Text → RenderState → RenderState) (leave : RenderState → RenderState),
      ∀ nested : Text → Rendering Text,
        Run.perform { run with nested } operation args s =
          match nested target u with
          | (.ok output, t) => (.ok (), finish output t)
          | (.error error, t) => (.error error, leave t) := by
  cases operation with
  | includeView => exact ⟨_, _, includeView_request h⟩
  | importView =>
    obtain ⟨name, imported⟩ := importView_request h
    exact ⟨fun output t => t.mapLayout (·.setImport name output), id, imported⟩
  | _ => simp [performRequests] at h

theorem includeWith_noRequest {name : Text} {data : Option Text}
    (h : run.includeWithRequests name data s = []) (nested : Text → Rendering Text) :
    Run.includeWith { run with nested } name data s = run.includeWith name data s := by
  cases data with
  | none => simp [includeWithRequests] at h
  | some source =>
    simp only [includeWith]
    refine Step.bind_congr fun value s₁ (hv : run.eval source s = _) =>
      Step.bind_congr fun bindings s₂ (hb : run.dataBindings value s₁ = _) =>
        Step.bind_congr fun _ s₃ ha => ?_
    simp [includeWithRequests, Listing.after_of_ok hv, Listing.after_of_ok hb,
      Listing.after_of_ok ha] at h

/-- A call that asks for no view does not come to a nested one. -/
theorem perform_noRequest {operation : Artifact.Call} (h : run.performRequests operation args s = [])
    (nested : Text → Rendering Text) :
    Run.perform { run with nested } operation args s = run.perform operation args s := by
  cases operation with
  | includeView =>
    refine Step.bind_congr fun name s' (hname : run.evalName args[0]? s = _) => ?_
    cases name with
    | none => rfl
    | some name =>
      rw [performRequests, includeRequests_of_some hname] at h
      have same := includeWith_noRequest h nested
      simp only [bind, Step.andThen, inFrame, Step.atEnd, same]
  | importView =>
    refine Step.bind_congr fun name s' (hname : run.evalName args[0]? s = _) => ?_
    cases name with
    | none => rfl
    | some name =>
      refine Step.bind_congr fun chosen s₁ (hchosen : run.evalName args[1]? s' = _) => ?_
      simp [performRequests, importRequests_of_some hname hchosen] at h
  | hook =>
    have values : Run.evalAll { run with nested } args = run.evalAll args := by
      clear h
      induction args with
      | nil => rfl
      | cons source args ih => simp only [evalAll, ih]; rfl
    simp only [perform, callHook, values]
  | _ => rfl

end Requests

end Run

/-! ## Renders -/

namespace Renderer

variable {r : Renderer}

theorem onTree_keeps {α : Type} (x : Step Files.Tree α) : Keeps (onTree x) := fun _ => rfl

theorem inPass_keeps {x : Rendering Unit} (hx : Keeps x) : Keeps (inPass x) :=
  fun s => hx (s.mapLayout Layout.beginPass)

section Chain

variable {nested : Text → Text → Rendering Text}
  (hn : ∀ caller target, Keeps (nested caller target))

include hn

theorem execute_keeps (view : Text) : Keeps (r.execute nested view) :=
  keeps_bind (onTree_keeps _) fun program => inPass_keeps (Run.nodes_keeps _ (hn view) program)

theorem follow_keeps (fuel : Nat) (visited : List Text) (view : Text) :
    Keeps (r.follow nested fuel visited view) := by
  induction fuel generalizing visited view with
  | zero => exact keeps_fail _
  | succ fuel ih =>
    intro s
    rw [follow_succ]
    cases he : r.execute nested view s with
    | mk result t =>
      have own := (execute_keeps hn view).includes_eq he
      cases result with
      | error error => exact own
      | ok output =>
        simp only
        split
        · exact own
        · split
          · exact own
          · split
            · exact (ih ..).trans own
            · exact own

theorem chain_keeps (view : Text) : Keeps (r.chain nested view) := by
  intro s
  rw [chain_eq]
  cases hf : r.follow nested r.maxLayouts [view] view (s.mapLayout (·.setParent none)) with
  | mk result t =>
    have followed := (follow_keeps hn r.maxLayouts [view] view).includes_eq hf
    cases result <;> exact followed

end Chain

theorem inNested_keeps {target : Text} {x : Rendering (List Fragment)} (hx : Keeps x) :
    Keeps (inNested target x) := by
  intro s
  have inner := hx { s with layout := s.layout.enterScope.2, includes := target :: s.includes }
  exact congrArg List.tail inner

/-- However a nested view ends, it leaves the stack as it was. -/
theorem nestedAt_keeps (r : Renderer) (room : Nat) (caller target : Text) :
    Keeps (r.nestedAt room caller target) := by
  induction room generalizing caller target with
  | zero => exact keeps_fail _
  | succ room ih =>
    intro s
    rw [nestedAt_succ]
    split
    · rfl
    · exact inNested_keeps (chain_keeps ih target) s

/-! ## The parts of a render -/

inductive Activity
  /-- A view and the layouts above it. -/
  | chain (view : Text)
  /-- What is left of a chain when it has come to a view. -/
  | follow (fuel : Nat) (visited : List Text) (view : Text)
  /-- Nodes in the program of a view. -/
  | nodes (view : Text) (program : List Artifact.Node)
  /-- Rounds of a loop in the program of a view. -/
  | rounds (view : Text) (body : List Artifact.Node) (rounds : List (List (Text × Value)))
  /-- A view that a caller includes or imports. -/
  | nested (caller target : Text)

/-- The number of views that can still be nested inside others. -/
def roomIn (within : List Text) : Nat := maxIncludes - within.length

/-- The state in which a part of a render ends that runs inside nested views, also when it fails. -/
def Activity.after (r : Renderer) (within : List Text) (s : RenderState) : Activity → RenderState
  | .chain view => (r.chain (r.nestedAt (roomIn within)) view s).2
  | .follow fuel visited view => (r.follow (r.nestedAt (roomIn within)) fuel visited view s).2
  | .nodes view program => (Run.nodes (r.run (roomIn within) view) program s).2
  | .rounds view body bindings =>
    (Run.forEach (Run.nodes (r.run (roomIn within) view) body) bindings s).2
  | .nested caller target => (r.nestedAt (roomIn within) caller target s).2

/-- The parts of a render of a view with data, each with the nested views inside which it runs, the
innermost first, and with the state from which on it does. -/
inductive Reaches (r : Renderer) (view : Text) (data : Variables) (tree : Files.Tree) :
    List Text → Activity → RenderState → Prop
  | start : Reaches r view data tree [] (.chain view) (start data tree)
  | chain {within first s} : Reaches r view data tree within (.chain first) s →
      Reaches r view data tree within (.follow r.maxLayouts [first] first)
        (s.mapLayout (·.setParent none))
  | program {within fuel visited current s program tree'} :
      Reaches r view data tree within (.follow (fuel + 1) visited current) s →
      r.program current s.tree = (.ok program, tree') →
      Reaches r view data tree within (.nodes current program)
        (({ s with tree := tree' } : RenderState).mapLayout Layout.beginPass)
  | layout {within fuel visited current s output u parent} :
      Reaches r view data tree within (.follow (fuel + 1) visited current) s →
      r.execute (r.nestedAt (roomIn within)) current s = (.ok output, u) →
      r.next? visited u = some parent →
      Reaches r view data tree within (.follow fuel (parent :: visited) parent)
        (u.mapLayout fun l => (l.setParent none).setLayer (l.layer + 1))
  | node {within current first rest s u} :
      Reaches r view data tree within (.nodes current (first :: rest)) s →
      Run.node (r.run (roomIn within) current) first s = (.ok (), u) →
      Reaches r view data tree within (.nodes current rest) u
  | loop {within current iterable binding body rest s value u rounds} :
      Reaches r view data tree within (.nodes current (.loop iterable binding body :: rest)) s →
      (r.run (roomIn within) current).eval iterable s = (.ok value, u) →
      Run.rounds? binding value = some rounds →
      Reaches r view data tree within (.rounds current body rounds) u
  | round {within current body bindings rest s} :
      Reaches r view data tree within (.rounds current body (bindings :: rest)) s →
      Reaches r view data tree within (.nodes current body) (s.mapScope (·.push bindings))
  | nextRound {within current body bindings rest s u} :
      Reaches r view data tree within (.rounds current body (bindings :: rest)) s →
      Run.inFrame bindings (Run.nodes (r.run (roomIn within) current) body) s = (.ok (), u) →
      Reaches r view data tree within (.rounds current body rest) u
  | request {within current operation source rest s target u} :
      Reaches r view data tree within (.nodes current (.call operation source :: rest)) s →
      (target, u) ∈ (r.run (roomIn within) current).performRequests operation
        (Text.arguments source) s →
      Reaches r view data tree within (.nested current target) u
  | enter {within caller target s room} :
      Reaches r view data tree within (.nested caller target) s →
      roomIn within = room + 1 → target ∉ s.includes →
      Reaches r view data tree (target :: within) (.chain target)
        { s with layout := s.layout.enterScope.2, includes := target :: s.includes }

/-- A nested view that is not refused comes to what its chain comes to from the state in which it is
entered. -/
theorem nestedAt_enter (r : Renderer) {within : List Text} {room : Nat} (caller : Text)
    {target : Text} {s : RenderState} (hroom : roomIn within = room + 1)
    (fresh : target ∉ s.includes) :
    r.nestedAt (roomIn within) caller target s =
      match r.chain (r.nestedAt (roomIn (target :: within))) target
        { s with layout := s.layout.enterScope.2, includes := target :: s.includes } with
      | (result, t) => (result.map t.layout.resolve,
          { t with
            layout := t.layout.leaveScope s.layout.enterScope.1, includes := t.includes.tail }) := by
  have inner : roomIn (target :: within) = room := by
    unfold roomIn at hroom ⊢
    rw [List.length_cons]
    omega
  rw [hroom, inner, nestedAt_succ, if_neg fresh]
  rfl

theorem Activity.includes_after (r : Renderer) (within : List Text) (s : RenderState)
    (activity : Activity) : (activity.after r within s).includes = s.includes := by
  have nested := nestedAt_keeps r (roomIn within)
  have program (view : Text) := Run.nodes_keeps (r.run (roomIn within) view) (nested view)
  cases activity with
  | chain view => exact chain_keeps (r := r) nested view s
  | follow fuel visited view => exact follow_keeps (r := r) nested fuel visited view s
  | nodes view nodes => exact program view nodes s
  | rounds view body bindings => exact Run.forEach_keeps (program view body) bindings s
  | nested caller target => exact nested caller target s

section Reached

variable {view : Text} {data : Variables} {tree : Files.Tree} {within : List Text}
  {activity : Activity} {s : RenderState}

/-- The stack has the views inside which a render is. -/
theorem Reaches.includes_eq (h : r.Reaches view data tree within activity s) :
    s.includes = within := by
  have nested (within : List Text) := nestedAt_keeps r (roomIn within)
  induction h with
  | start => rfl
  | chain _ ih => exact ih
  | program _ _ ih => exact ih
  | @layout within _ _ current _ _ _ _ _ executed _ ih =>
    exact ((execute_keeps (nested within) current).includes_eq executed).trans ih
  | @node within current first _ _ _ _ ran ih =>
    have kept := Run.node_keeps (r.run (roomIn within) current) (nested within current) first
    exact (kept.includes_eq ran).trans ih
  | loop _ evaluated _ ih =>
    obtain rfl := Run.eval_ok evaluated
    exact ih
  | round _ ih => exact ih
  | @nextRound within current body bindings _ _ _ _ ran ih =>
    have program := Run.nodes_keeps (r.run (roomIn within) current) (nested within current) body
    exact ((Run.inFrame_keeps program bindings).includes_eq ran).trans ih
  | request _ asked ih => exact (Run.includes_of_mem_performRequests asked).trans ih
  | enter _ _ _ ih => exact congrArg (List.cons _) ih

/-- No view is nested inside itself, and there is an end to nesting. -/
theorem Reaches.nodup_and_length_le (h : r.Reaches view data tree within activity s) :
    within.Nodup ∧ within.length ≤ maxIncludes := by
  induction h with
  | start => exact ⟨List.nodup_nil, Nat.zero_le _⟩
  | enter asked room fresh ih =>
    rw [asked.includes_eq] at fresh
    refine ⟨List.nodup_cons.mpr ⟨fresh, ih.1⟩, ?_⟩
    unfold roomIn at room
    rw [List.length_cons]
    omega
  | _ => assumption

end Reached

/-! ## Refusals -/

section Refused

def noFiles : Files.Tree := ⟨[], [], 0⟩

theorem fileAt?_noFiles (location : Files.Location) : noFiles.fileAt? location = none := by
  unfold Files.Tree.fileAt?
  by_cases root : location = []
  · rw [root]
    rfl
  · simp [Files.Tree.entryAt?, root, noFiles]

theorem isFile_prepared_noFiles (c : Compiler) (path : Text) :
    (c.prepared noFiles).isFile path = false := by
  have rooted : noFiles.Rooted := Compiler.rooted_of_entries (by simp [noFiles])
  obtain ⟨made, -⟩ := Compiler.prepared_made (c := c) rooted
  refine Bool.eq_false_iff.mpr fun there => ?_
  obtain ⟨content, modified, found⟩ := Files.Tree.isFile_iff.mp there
  obtain ⟨location, -, file⟩ := Files.Tree.stat_eq_file_iff.mp found
  rw [made.files, fileAt?_noFiles] at file
  simp at file

/-- Without files there are no programs, and the error is not one of rendering. -/
theorem program_noFiles (r : Renderer) (view : Text) :
    ∃ error t, r.program view noFiles = (.error error, t) ∧
      ∀ view fault, error ≠ .render view fault := by
  have compiled : ∃ error, r.compiler.compileView false view noFiles =
      (.error error, r.compiler.prepared noFiles) ∧ ∀ view fault, error ≠ .render view fault := by
    rw [Compiler.compileView_eq]
    cases valid : (r.compiler.validateDirectories noFiles).1 with
    | ok _ =>
      refine ⟨.sourceNotFound (r.compiler.resolve view).view (r.compiler.resolve view).source,
        ?_, by simp⟩
      simp only [Compiler.update, isFile_prepared_noFiles, Bool.not_false, ↓reduceIte]
    | error error =>
      refine ⟨error, rfl, ?_⟩
      rcases Compiler.directory_or_fault_of_validateDirectories valid with
        ⟨_, _, rfl⟩ | ⟨_, rfl⟩ <;> simp
  obtain ⟨error, failed, other⟩ := compiled
  refine ⟨error, r.compiler.prepared noFiles, ?_, other⟩
  simp only [program, bind, Step.andThen, failed]

/-- So no chain comes further than to its first program. -/
theorem chain_noFiles (r : Renderer) (nested : Text → Text → Rendering Text) (view : Text)
    {s : RenderState} (hs : s.tree = noFiles) :
    ∃ error t, r.chain nested view s = (.error error, t) ∧
      ∀ view fault, error ≠ .render view fault := by
  obtain ⟨error, t, failed, other⟩ := program_noFiles r view
  rw [chain_eq]
  cases r.maxLayouts with
  | zero => exact ⟨_, _, rfl, by simp⟩
  | succ fuel =>
    have executed (s : RenderState) (hs : s.tree = noFiles) :
        r.execute nested view s = (.error error, { s with tree := t }) := by
      simp only [execute, bind, Step.andThen, onTree, hs, failed]
    rw [follow_succ, executed (s.mapLayout (·.setParent none)) hs]
    exact ⟨error, _, rfl, other⟩

/-- A view that is not on the stack is looked up in the files when the stack is not full. -/
theorem nested_noFiles (r : Renderer) (caller target : Text) {s : RenderState}
    (hs : s.tree = noFiles) (fresh : target ∉ s.includes) (room : s.includes.length < maxIncludes) :
    ∃ error, (r.nested caller target s).1 = .error error ∧
      ∀ view fault, error ≠ .render view fault := by
  obtain ⟨left, hl⟩ : ∃ left, maxIncludes - s.includes.length = left + 1 :=
    ⟨maxIncludes - s.includes.length - 1, by omega⟩
  obtain ⟨error, t, failed, other⟩ := chain_noFiles r (r.nestedAt left) target
    (s := { s with layout := s.layout.enterScope.2, includes := target :: s.includes }) hs
  refine ⟨error, ?_, other⟩
  simp only [nested, hl]
  rw [nestedAt_succ, if_neg fresh]
  simp only [inNested]
  rw [failed]
  rfl

/-- A view that is on the stack is refused, and any view is when the stack is full. -/
theorem nested_refused (r : Renderer) (caller : Text) {target : Text} {s : RenderState}
    (h : target ∈ s.includes ∨ maxIncludes ≤ s.includes.length) :
    r.nested caller target s = (.error (.render caller (.includesItself target)), s) := by
  unfold nested
  cases room : maxIncludes - s.includes.length with
  | zero => rfl
  | succ left =>
    have listed : target ∈ s.includes := h.resolve_right (by omega)
    rw [nestedAt_succ, if_pos listed]

end Refused

/-- Wherever a render is, the stack has just the views inside which it is, and has them again at the
end; they are all different and no more than `maxIncludes`. A view that is included or imported
there has the room that the stack leaves. It leaves the stack as it was, and it is refused, whatever
the files are, just when it is on the stack or the stack is full. -/
theorem nesting_bounded (r : Renderer) :
    (∀ view data tree within activity s, r.Reaches view data tree within activity s →
      s.includes = within ∧ (activity.after r within s).includes = within ∧
        within.Nodup ∧ within.length ≤ maxIncludes) ∧
    (∀ view data tree within caller target s,
      r.Reaches view data tree within (.nested caller target) s →
      r.nestedAt (roomIn within) caller target s = r.nested caller target s) ∧
    ∀ caller target s, (r.nested caller target s).2.includes = s.includes ∧
      ((∀ tree, r.nested caller target { s with tree } =
          (.error (.render caller (.includesItself target)), { s with tree })) ↔
        target ∈ s.includes ∨ maxIncludes ≤ s.includes.length) := by
  refine ⟨fun view data tree within activity s reached => ?_,
    fun view data tree within caller target s reached => ?_, fun caller target s => ⟨?_, ?_, ?_⟩⟩
  · have stack := reached.includes_eq
    exact ⟨stack, (activity.includes_after r within s).trans stack, reached.nodup_and_length_le⟩
  · rw [nested, reached.includes_eq, roomIn]
  · exact nestedAt_keeps r _ caller target s
  · -- A view that is not refused would be missed in a tree without files.
    intro refused
    by_contra free
    rw [not_or, Nat.not_le] at free
    obtain ⟨error, failed, other⟩ :=
      nested_noFiles r caller target (s := { s with tree := noFiles }) rfl free.1 free.2
    rw [refused noFiles] at failed
    exact other _ _ (Except.error.inj failed).symm
  · exact fun h tree => nested_refused r caller h

/-! A page that includes itself is refused the second time. -/

section Example

def ringFiles : Files.Tree :=
  ⟨[(["v".toList], .directory 0o755 0), (["o".toList], .directory 0o755 0),
    (["v".toList, "ring.tmpl".toList], .file (.text "@include(ring)".toList) 1),
    (["o".toList, "ring.out".toList],
      .file (.text "<?vm layout.include(ring) ?>".toList) 2)], [], 5⟩

theorem program_ring : pages.program "ring".toList ringFiles =
    (.ok [.call .includeView "ring".toList], ringFiles) := by
  have compiled : pages.compiler.compileView false "ring".toList ringFiles =
      (.ok ⟨pages.compiler.resolve "ring".toList, .fresh⟩, ringFiles) := by decide +kernel
  have text : ringFiles.read (pages.compiler.resolve "ring".toList).artifact =
      .ok "<?vm layout.include(ring) ?>".toList := by decide +kernel
  have parsed : Artifact.parse "<?vm layout.include(ring) ?>".toList =
      .ok [.call .includeView "ring".toList] := by rfl
  simp only [program, bind, Step.andThen, compiled, Step.state, text, parsed]
  rfl

/-- A chain of the page comes to the page as a nested view. -/
theorem Reaches.ring {within : List Text} {s : RenderState}
    (h : pages.Reaches "ring".toList .empty ringFiles within (.chain "ring".toList) s)
    (hs : s.tree = ringFiles) :
    ∃ u, u.tree = ringFiles ∧ pages.Reaches "ring".toList .empty ringFiles within
      (.nested "ring".toList "ring".toList) u := by
  have follow : pages.Reaches "ring".toList .empty ringFiles within
    (.follow (9 + 1) ["ring".toList] "ring".toList) _ := h.chain
  have nodes := follow.program (hs ▸ program_ring)
  have request : pages.Reaches "ring".toList .empty ringFiles within
    (.nested "ring".toList "ring".toList) _ := nodes.request (List.mem_singleton.mpr rfl)
  refine ⟨_, ?_, request⟩
  exact hs

theorem nesting_bounded_ring :
    ∃ s, pages.Reaches "ring".toList .empty ringFiles ["ring".toList]
        (.nested "ring".toList "ring".toList) s ∧
      s.includes = ["ring".toList] ∧
      pages.nestedAt (roomIn ["ring".toList]) "ring".toList "ring".toList s =
        (.error (.render "ring".toList (.includesItself "ring".toList)), s) := by
  obtain ⟨bounded, asked, nested⟩ := nesting_bounded pages
  obtain ⟨outer, tree, first⟩ := Reaches.ring .start rfl
  have room : roomIn [] = 63 + 1 := rfl
  have enter := first.enter room (by rw [(bounded _ _ _ _ _ _ first).1]; simp)
  obtain ⟨inner, -, second⟩ := enter.ring tree
  have stack := (bounded _ _ _ _ _ _ second).1
  refine ⟨inner, second, stack, ?_⟩
  rw [asked _ _ _ _ _ _ _ second]
  exact (nested _ _ inner).2.mpr (.inl (by simp [stack])) inner.tree

end Example

end Renderer

end Stencil
