import Stencil.Proofs.Executed
import Stencil.Proofs.NestedView

/-!
# What an import does to variables

An include renders its view in a frame of its own, which is dropped afterwards; an import renders
its view in the frame of the view that it stands in. `Run.nodesSettings` lists the variables that a
program sets in the frame on top, with their values: those of its assignments outside loops, and
those that its imports set. `Renderer.chainSettings` does so for a view and the layouts above it.
Proved here:

* `nodes_scope`: a program that succeeds has set these variables, one after the other, and has done
  nothing else to the scope; in particular loops and includes leave no trace in it;
* `import_scope`: so an import leaves the variables of its importer alone just when the last value
  that its view gives to a name is always the one that was visible before;
* `import_overwrites`: it does not where the imported view uses a name of the importer for itself;
* `frames_kept`: a program that succeeds, with all the views that it nests, has left every frame but
  the one on top, and its loops and includes have left that one as well.
-/

namespace Stencil

abbrev Settings := List (Text × Value)

def lastValue? (name : Text) : Settings → Option Value
  | [] => none
  | (key, value) :: rest => (lastValue? name rest).or (if key = name then some value else none)

namespace Scope

theorem find?_bind (scope : Scope) (key name : Text) (value : Value) :
    (scope.bind key value).find? name = if key = name then some value else scope.find? name := by
  simp only [find?, frames, bind, List.findSome?_cons]
  by_cases h : key = name
  · subst h
    simp
  · simp [h, NameMap.find?_insert_of_ne _ (Ne.symm h)]

theorem below_bindAll (scope : Scope) (settings : Settings) :
    (scope.bindAll settings).below = scope.below := by
  induction settings generalizing scope with
  | nil => rfl
  | cons first rest ih => exact ih (scope.bind first.1 first.2)

theorem bindAll_append (scope : Scope) (first rest : Settings) :
    scope.bindAll (first ++ rest) = (scope.bindAll first).bindAll rest :=
  List.foldl_append

/-- There are as many frames as before, and but for the one on top they are the same. -/
structure KeepsFrames (before after : Scope) : Prop where
  count : after.frames.length = before.frames.length
  below : after.frames.tail = before.frames.tail

/-- Only the frame on top is set in. -/
theorem keepsFrames_bindAll (scope : Scope) (settings : Settings) :
    scope.KeepsFrames (scope.bindAll settings) where
  count := congrArg (fun below => below.length + 1) (below_bindAll scope settings)
  below := below_bindAll scope settings

/-- The frames below are out of reach. -/
theorem pop_bindAll_push (scope : Scope) (bindings settings : Settings) :
    ((scope.push bindings).bindAll settings).pop = scope := by
  unfold pop
  rw [below_bindAll]
  rfl

theorem find?_bindAll (scope : Scope) (settings : Settings) (name : Text) :
    (scope.bindAll settings).find? name = (lastValue? name settings).or (scope.find? name) := by
  induction settings generalizing scope with
  | nil => rfl
  | cons first rest ih =>
    have step := ih (scope.bind first.1 first.2)
    rw [find?_bind] at step
    refine step.trans ?_
    rw [lastValue?, Option.or_assoc]
    by_cases h : first.1 = name <;> simp [h]

end Scope

/-! ## Programs -/

namespace Run

/-- What is set after something that may fail. -/
def settingsAfter {α : Type} (x : Rendering α) (f : α → RenderState → Settings) :
    RenderState → Settings := fun s =>
  match x s with
  | (.ok a, s) => f a s
  | (.error _, _) => []

theorem settingsAfter_of_ok {α : Type} {x : Rendering α} {a : α} {s t : RenderState}
    (h : x s = (.ok a, t)) (f : α → RenderState → Settings) : settingsAfter x f s = f a t := by
  simp only [settingsAfter, h]

/-- What a node sets in the frame on top, when `imported` is what a nested view sets in the frame that
it runs in. Loops and includes have frames of their own. -/
def nodeSettings (run : Run) (imported : Text → RenderState → Settings) :
    Artifact.Node → RenderState → Settings
  | .assign name expr => settingsAfter (run.eval expr) fun value _ => [(name, value)]
  | .call .importView source => fun s =>
    (run.importRequests (Text.arguments source) s).flatMap fun (target, s) => imported target s
  | _ => fun _ => []

def nodesSettings (run : Run) (imported : Text → RenderState → Settings) :
    List Artifact.Node → RenderState → Settings
  | [] => fun _ => []
  | first :: rest => fun s =>
    run.nodeSettings imported first s ++
      settingsAfter (node run first) (fun _ => run.nodesSettings imported rest) s

/-- A nested view sets the listed variables in the frame that it runs in, and leaves the others. -/
def SetsIn (nested : Text → Rendering Text) (imported : Text → RenderState → Settings) : Prop :=
  ∀ target s output t, nested target s = (.ok output, t) →
    t.scope = s.scope.bindAll (imported target s)

section Scope

variable {run : Run} {imported : Text → RenderState → Settings} {s t : RenderState} {u : Unit}

theorem withName_scope {args : List Text} {f : Text → Layout → Layout}
    (h : run.withName args f s = (.ok u, t)) : t.scope = s.scope := by
  obtain ⟨name, s', hn, h⟩ := Step.bind_ok h
  obtain rfl := evalName_ok hn
  cases name with
  | none => rw [(Prod.mk.inj h).2]
  | some name => rw [onLayout_ok h]; rfl

theorem callHook_scope {args : List Text} (h : run.callHook args s = (.ok u, t)) :
    t.scope = s.scope := by
  obtain ⟨values, s', hv, h⟩ := Step.bind_ok h
  obtain rfl := evalAll_ok hv
  cases hook : run.hook with
  | none =>
    simp only [hook] at h
    rw [(Prod.mk.inj h).2]
  | some registered =>
    simp only [hook] at h
    obtain ⟨output, s', ho, h⟩ := Step.bind_ok h
    obtain rfl : s = s' := (Prod.mk.inj ho).2
    rw [onLayout_ok h]
    rfl

/-- What an include does to variables is over with its frame. -/
theorem includeView_scope (hn : SetsIn run.nested imported) {args : List Text}
    (h : run.includeView args s = (.ok u, t)) : t.scope = s.scope := by
  rcases includeView_ok h with ⟨-, rfl⟩ | ⟨target, asked, output, last, bindings, -, rfl, ran, rfl⟩
  · rfl
  · show last.scope.pop = s.scope
    rw [hn _ _ _ _ ran]
    show (((s.scope.push []).bindAll bindings).bindAll _).pop = s.scope
    rw [← Scope.bindAll_append, Scope.pop_bindAll_push]

/-- An import has no frame. -/
theorem importView_scope (hn : SetsIn run.nested imported) {args : List Text}
    (h : run.importView args s = (.ok u, t)) :
    t.scope = s.scope.bindAll
      ((run.importRequests args s).flatMap fun (target, s) => imported target s) := by
  rcases importView_ok h with ⟨none, rfl⟩ | ⟨target, name, output, last, requests, ran, rfl⟩
  · rw [none]
    rfl
  · rw [requests, List.flatMap_singleton]
    show last.scope = _
    exact hn _ _ _ _ ran

theorem forEach_scope {body : Rendering Unit} {settings : RenderState → Settings}
    (hb : ∀ {s t u}, body s = (.ok u, t) → t.scope = s.scope.bindAll (settings s))
    {rounds : List Settings} (h : forEach body rounds s = (.ok u, t)) : t.scope = s.scope := by
  induction rounds generalizing s with
  | nil => rw [(Prod.mk.inj h).2]
  | cons bindings rest ih =>
    obtain ⟨_, s', hf, h⟩ := Step.bind_ok h
    obtain ⟨v, hv, rfl⟩ := inFrame_ok hf
    refine (ih h).trans ?_
    show v.scope.pop = s.scope
    rw [hb hv]
    exact Scope.pop_bindAll_push ..

mutual

theorem node_scope (hn : SetsIn run.nested imported) :
    ∀ (n : Artifact.Node) {s t : RenderState} {u : Unit}, Run.node run n s = (.ok u, t) →
      t.scope = s.scope.bindAll (run.nodeSettings imported n s)
  | .text text, s, t, u, h => by
    unfold Run.node at h
    rw [onLayout_ok h]
    rfl
  | .echo expr escape, s, t, u, h => by
    unfold Run.node at h
    obtain ⟨value, s', hv, h⟩ := Step.bind_ok h
    obtain rfl := eval_ok hv
    rw [onLayout_ok h]
    rfl
  | .loop iterable binding body, s, t, u, h => by
    unfold Run.node at h
    obtain ⟨value, s₁, hv, h⟩ := Step.bind_ok h
    obtain ⟨rounds, s₂, hr, h⟩ := Step.bind_ok h
    obtain rfl := eval_ok hv
    obtain rfl := rounds_ok hr
    exact forEach_scope (nodes_scope hn body) h
  | .assign name expr, s, t, u, h => by
    unfold Run.node at h
    obtain ⟨value, s', hv, h⟩ := Step.bind_ok h
    have set : run.nodeSettings imported (.assign name expr) s = [(name, value)] :=
      settingsAfter_of_ok hv fun value _ => [(name, value)]
    obtain rfl := eval_ok hv
    obtain rfl : _ = t := (Prod.mk.inj h).2
    rw [set]
    rfl
  | .stopSection, s, t, u, h => by
    unfold Run.node at h
    rw [onLayout_ok h]
    rfl
  | .call operation source, s, t, u, h => by
    unfold Run.node at h
    cases operation with
    | extend => exact withName_scope h
    | startSection => exact withName_scope h
    | content => exact withName_scope h
    | includeView => exact includeView_scope hn h
    | importView => exact importView_scope hn h
    | hook => exact callHook_scope h

/-- All that nodes do to the scope is to set the listed variables. -/
theorem nodes_scope (hn : SetsIn run.nested imported) :
    ∀ (program : List Artifact.Node) {s t : RenderState} {u : Unit},
      Run.nodes run program s = (.ok u, t) →
      t.scope = s.scope.bindAll (run.nodesSettings imported program s)
  | [], s, t, u, h => by
    unfold Run.nodes at h
    rw [(Prod.mk.inj h).2]
    rfl
  | first :: rest, s, t, u, h => by
    unfold Run.nodes at h
    obtain ⟨_, s', hf, h⟩ := Step.bind_ok h
    simp only [nodesSettings, settingsAfter_of_ok hf]
    rw [Scope.bindAll_append, ← node_scope hn first hf]
    exact nodes_scope hn rest h

end

end Scope

end Run

/-! ## Renders -/

namespace Renderer

variable {r : Renderer} {s t : RenderState}

def executeSettings (r : Renderer) (nested : Text → Text → Rendering Text)
    (imported : Text → Text → RenderState → Settings) (view : Text) : RenderState → Settings :=
  Run.settingsAfter (onTree (r.program view)) fun program s =>
    Run.nodesSettings ⟨view, r.evaluate, r.hook, nested view⟩ (imported view) program
      (s.mapLayout Layout.beginPass)

def followSettings (r : Renderer) (nested : Text → Text → Rendering Text)
    (imported : Text → Text → RenderState → Settings) :
    Nat → List Text → Text → RenderState → Settings
  | 0, _, _ => fun _ => []
  | fuel + 1, visited, view => fun s =>
    r.executeSettings nested imported view s ++
      Run.settingsAfter (r.execute nested view) (fun _ s =>
        match r.next? visited s with
        | none => []
        | some parent =>
          r.followSettings nested imported fuel (parent :: visited) parent
            (s.mapLayout fun l => (l.setParent none).setLayer (l.layer + 1))) s

def chainSettings (r : Renderer) (nested : Text → Text → Rendering Text)
    (imported : Text → Text → RenderState → Settings) (view : Text) : RenderState → Settings :=
  fun s =>
    r.followSettings nested imported r.maxLayouts [view] view (s.mapLayout (·.setParent none))

/-- What a nested view sets in the frame that it runs in, when `room` more views can be nested. -/
def nestedSettingsAt (r : Renderer) : Nat → Text → Text → RenderState → Settings
  | 0, _, _ => fun _ => []
  | room + 1, _, target => fun s =>
    r.chainSettings (r.nestedAt room) (nestedSettingsAt r room) target
      { s with layout := s.layout.enterScope.2, includes := target :: s.includes }

def importSettings (r : Renderer) (room : Nat) (view source : Text) : RenderState → Settings :=
  (r.run room view).nodeSettings (r.nestedSettingsAt room view) (.call .importView source)

section Chain

variable {nested : Text → Text → Rendering Text} {imported : Text → Text → RenderState → Settings}
  {view : Text} {output : List Fragment}
  (hn : ∀ caller, Run.SetsIn (nested caller) (imported caller))

include hn

theorem execute_scope (h : r.execute nested view s = (.ok output, t)) :
    t.scope = s.scope.bindAll (r.executeSettings nested imported view s) := by
  obtain ⟨program, tree, u, found, ran, -, rfl⟩ := execute_ok h
  have compiled : onTree (r.program view) s = (.ok program, { s with tree }) := by
    simp only [onTree, found]
  rw [executeSettings, Run.settingsAfter_of_ok compiled]
  exact Run.nodes_scope (hn view) program ran

theorem follow_scope {fuel : Nat} {visited : List Text}
    (h : r.follow nested fuel visited view s = (.ok output, t)) :
    t.scope = s.scope.bindAll (r.followSettings nested imported fuel visited view s) := by
  induction fuel generalizing visited view s with
  | zero => simp [follow_zero] at h
  | succ fuel ih =>
    obtain ⟨own, u, run, goes⟩ := follow_ok h
    simp only [followSettings, Run.settingsAfter_of_ok run]
    rw [Scope.bindAll_append, ← execute_scope hn run]
    rcases goes with ⟨last, -, rfl⟩ | ⟨parent, next, rest⟩
    · rw [last]
      rfl
    · rw [next]
      exact ih rest

theorem chain_scope (h : r.chain nested view s = (.ok output, t)) :
    t.scope = s.scope.bindAll (r.chainSettings nested imported view s) := by
  obtain ⟨u, followed, rfl⟩ := chain_ok h
  exact follow_scope hn followed

end Chain

/-- A nested view sets variables in the frame that it runs in, and leaves the others. -/
theorem nestedAt_scope (r : Renderer) (room : Nat) (caller : Text) :
    Run.SetsIn (r.nestedAt room caller) (r.nestedSettingsAt room caller) := by
  induction room generalizing caller with
  | zero =>
    intro target s output t h
    simp [nestedAt_zero] at h
  | succ room ih =>
    intro target s output t h
    obtain ⟨-, fragments, u, chained, -, rfl⟩ := nestedAt_ok h
    exact chain_scope ih chained

/-! ## Imports -/

/-- All variables but `imports` are visible in one state as in the other. -/
def SameVariables (s t : RenderState) : Prop :=
  ∀ name, name ≠ importsName → t.bindings name = s.bindings name

theorem bindings_of_ne {name : Text} (h : name ≠ importsName) (s : RenderState) :
    s.bindings name = s.scope.find? name := by
  simp only [RenderState.bindings, visible, h, ↓reduceIte]
  cases s.scope.find? name <;> rfl

/-- An import sets the variables that its view sets outside loops, in the frame of the importer. Those of
the importer stay as they were just when none of these values is new. -/
theorem import_scope (r : Renderer) (room : Nat) (view source : Text) {s t : RenderState}
    (h : Run.node (r.run room view) (.call .importView source) s = (.ok (), t)) :
    t.scope = s.scope.bindAll (r.importSettings room view source s) ∧
      (SameVariables s t ↔ ∀ name value, name ≠ importsName →
        lastValue? name (r.importSettings room view source s) = some value →
        s.bindings name = some value) := by
  have nested : Run.SetsIn (r.run room view).nested (r.nestedSettingsAt room view) :=
    nestedAt_scope r room view
  have scope : t.scope = s.scope.bindAll (r.importSettings room view source s) :=
    Run.node_scope nested _ h
  have seen {name : Text} (hn : name ≠ importsName) : t.bindings name =
      (lastValue? name (r.importSettings room view source s)).or (s.bindings name) := by
    rw [bindings_of_ne hn, bindings_of_ne hn, scope, Scope.find?_bindAll]
  refine ⟨scope, fun same name value hn last => ?_, fun kept name hn => ?_⟩
  · rw [← same name hn, seen hn, last, Option.some_or]
  · rw [seen hn]
    cases last : lastValue? name (r.importSettings room view source s) with
    | none => rw [Option.none_or]
    | some value => rw [Option.some_or, kept name value hn last]

/-! A page imports a list, which uses `x` in a loop, and a part, which uses it outside loops. -/

section Example

def partFiles : Files.Tree :=
  ⟨[(["v".toList], .directory 0o755 0), (["o".toList], .directory 0o755 0),
    (["v".toList, "list.tmpl".toList], .file (.text []) 1),
    (["v".toList, "part.tmpl".toList], .file (.text []) 1),
    (["o".toList, "list.out".toList], .file (.text
      "<?vm foreach (items as item): ?><?vm let x = item ?><?vm endforeach ?>".toList) 2),
    (["o".toList, "part.out".toList], .file (.text "<?vm let x = 2 ?>".toList) 2)], [], 5⟩

/-- Expressions stand for themselves, but there are two items. -/
def listing : Renderer :=
  ⟨pages.compiler, fun source _ =>
    .ok (if source = "items".toList then .list [.ofText "a".toList, .ofText "b".toList]
      else .ofText source), none, 10⟩

def partState : RenderState :=
  ⟨partFiles, Layout.initial.beginPass, ⟨⟨[("x".toList, .ofText "1".toList)]⟩, []⟩, []⟩

theorem node_part : ∀ target ∈ ["list".toList, "part".toList],
    (Run.node (listing.run 64 "home".toList) (.call .importView target) partState).1 =
      .ok () := by
  decide +kernel

/-- The list sets `x` in the frames of its loop. -/
theorem import_scope_list :
    ∃ t, Run.node (listing.run 64 "home".toList) (.call .importView "list".toList) partState =
        (.ok (), t) ∧
      t.scope = partState.scope ∧ SameVariables partState t := by
  obtain ⟨t, run⟩ := Step.exists_of_fst (node_part "list".toList (by simp))
  obtain ⟨scope, same⟩ := import_scope listing 64 "home".toList "list".toList run
  have empty : (listing.importSettings 64 "home".toList "list".toList partState).isEmpty := by
    decide +kernel
  rw [List.isEmpty_iff.mp empty] at scope same
  exact ⟨t, run, scope, same.mpr fun name value _ last => by simp [lastValue?] at last⟩

/-- The part sets the `x` of the page. -/
theorem import_overwrites :
    ∃ t, Run.node (listing.run 64 "home".toList) (.call .importView "part".toList) partState =
        (.ok (), t) ∧
      (partState.bindings "x".toList).map Value.written = some "1".toList ∧
      (t.bindings "x".toList).map Value.written = some "2".toList ∧
      ¬SameVariables partState t := by
  obtain ⟨t, run⟩ := Step.exists_of_fst (node_part "part".toList (by simp))
  have before : (partState.bindings "x".toList).map Value.written = some "1".toList := by
    decide +kernel
  have after : ((Run.node (listing.run 64 "home".toList) (.call .importView "part".toList)
      partState).2.bindings "x".toList).map Value.written = some "2".toList := by
    decide +kernel
  rw [run] at after
  refine ⟨t, run, before, after, fun same => ?_⟩
  rw [same "x".toList (by decide), before] at after
  exact absurd after (by decide)

end Example

/-! ## Frames -/

/-- A program that succeeds leaves all frames but the one on top, and so do the views that it nests
and the chains of layouts in them. A loop and an include leave the whole scope as it was. -/
theorem frames_kept (r : Renderer) (room : Nat) (view : Text) {s t : RenderState} :
    (∀ program, Run.nodes (r.run room view) program s = (.ok (), t) →
      s.scope.KeepsFrames t.scope) ∧
    (∀ target output, (r.run room view).nested target s = (.ok output, t) →
      s.scope.KeepsFrames t.scope) ∧
    (∀ output, r.chain (r.nestedAt room) view s = (.ok output, t) →
      s.scope.KeepsFrames t.scope) ∧
    (∀ iterable binding body,
      Run.node (r.run room view) (.loop iterable binding body) s = (.ok (), t) →
      t.scope = s.scope) ∧
    ∀ source, Run.node (r.run room view) (.call .includeView source) s = (.ok (), t) →
      t.scope = s.scope := by
  have nested : Run.SetsIn (r.run room view).nested (r.nestedSettingsAt room view) :=
    nestedAt_scope r room view
  refine ⟨fun program h => ?_, fun target output h => ?_, fun output h => ?_,
    fun iterable binding body h => ?_, fun source h => ?_⟩
  · rw [Run.nodes_scope nested program h]
    exact Scope.keepsFrames_bindAll ..
  · rw [nested target s output t h]
    exact Scope.keepsFrames_bindAll ..
  · rw [chain_scope (nestedAt_scope r room) h]
    exact Scope.keepsFrames_bindAll ..
  · exact Run.node_scope nested _ h
  · exact Run.node_scope nested _ h

/-! A page with a variable of its own and with data below it loops over the items twice, and
includes and imports the part within. -/

section Example

def stocked : Renderer :=
  { listing with evaluate := fun source bindings =>
      if source = "data".toList then .ok (.map [(.ofText "x".toList, .ofText "5".toList)])
      else listing.evaluate source bindings }

def innerLoop : Artifact.Node :=
  .loop "items".toList "n, y".toList [.assign "x".toList "y".toList,
    .call .importView "part".toList, .call .includeView "part, data".toList]

def busyLoop : Artifact.Node :=
  .loop "items".toList "x".toList [.assign "z".toList "x".toList, innerLoop]

def busyInclude : Artifact.Node := .call .includeView "list, data".toList

/-- The page in a frame on top of the one with its data. -/
def busyState : RenderState :=
  { partState with scope := partState.scope.push [("y".toList, .ofText "1".toList)] }

def busyPage : List Artifact.Node :=
  [busyLoop, busyInclude, .call .importView "part".toList]

theorem run_busy : (Run.nodes (stocked.run 64 "home".toList) busyPage busyState).1 = .ok () ∧
    (Run.node (stocked.run 64 "home".toList) busyLoop busyState).1 = .ok () ∧
    (Run.node (stocked.run 64 "home".toList) busyInclude busyState).1 = .ok () := by
  decide +kernel

theorem frames_kept_busy :
    (∃ t, Run.nodes (stocked.run 64 "home".toList) busyPage busyState = (.ok (), t) ∧
      t.scope.frames.length = 2 ∧ t.scope.frames.tail = partState.scope.frames) ∧
    (∃ t, Run.node (stocked.run 64 "home".toList) busyLoop busyState = (.ok (), t) ∧
      t.scope = busyState.scope) ∧
    ∃ t, Run.node (stocked.run 64 "home".toList) busyInclude busyState = (.ok (), t) ∧
      t.scope = busyState.scope := by
  obtain ⟨page, loop, included⟩ := run_busy
  obtain ⟨t, page⟩ := Step.exists_of_fst page
  obtain ⟨u, loop⟩ := Step.exists_of_fst loop
  obtain ⟨v, included⟩ := Step.exists_of_fst included
  have kept := (frames_kept stocked 64 "home".toList).1 busyPage page
  have looped := (frames_kept stocked 64 "home".toList).2.2.2.1 _ _ _ loop
  have left := (frames_kept stocked 64 "home".toList).2.2.2.2 _ included
  exact ⟨⟨t, page, kept.count, kept.below⟩, ⟨u, loop, looped⟩, v, included, left⟩

end Example

end Renderer

end Stencil
