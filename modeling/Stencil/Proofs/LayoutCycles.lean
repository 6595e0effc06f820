import Mathlib.Data.List.Nodup
import Mathlib.Data.List.Perm.Subperm
import Stencil.Expr.Eval
import Stencil.Proofs.ArtifactNames
import Stencil.Proofs.Executed
import Stencil.Proofs.MadeDirectories
import Stencil.Proofs.NestedView

/-!
# Layouts that come back to a view

A chain of layouts tells the views that it has run by their names. A view has many names: slashes at
the start do not count, and `a//b` and `c/../a/b` lead to the source of `a/b`. Proved here:

* `cyclesCaught_iff`: a chain is stopped wherever it comes back to a source, so that it runs no
  source twice and ends, just when no parent is another name of a view that has run;
* `cyclesCaught_of_canonical`: so it is where all parents have names without detours;
* `cycle_missed`: a view that extends itself by another name runs twice, and its render succeeds;
* `chain_climbing`: one that takes a new name each time uses up any number of layouts.

A chain is followed by `Renderer.Visits`, view by view; files stay where they are on the way
(`execute_grows`).
-/

namespace Stencil

open Files (Tree Location)
open Files.Tree

/-! ## Sources -/

namespace Compiler

variable {c : Compiler} {t u : Tree} {view : Text} {place : Location}

/-- Where the source of a view lies, if it is there. -/
def sourceAt? (c : Compiler) (t : Tree) (view : Text) : Option Location :=
  match t.locate (c.resolve view).source with
  | .ok place => if (t.fileAt? place).isSome then some place else none
  | .error _ => none

theorem sourceAt?_eq_some_iff : c.sourceAt? t view = some place ↔
    t.locate (c.resolve view).source = .ok place ∧ (t.fileAt? place).isSome := by
  unfold sourceAt?
  cases t.locate (c.resolve view).source with
  | error fault => simp
  | ok other =>
    simp only [Option.ite_none_right_eq_some, Option.some.injEq, Except.ok.injEq]
    constructor
    · rintro ⟨file, rfl⟩
      exact ⟨rfl, file⟩
    · rintro ⟨rfl, file⟩
      exact ⟨file, rfl⟩

theorem has_iff : c.has t view = true ↔ ∃ place, c.sourceAt? t view = some place := by
  simp only [sourceAt?_eq_some_iff, Option.isSome_iff_exists, Prod.exists]
  show t.isFile (c.resolve view).source = true ↔ _
  simp only [isFile_iff, stat_eq_file_iff]
  constructor
  · rintro ⟨content, modified, place, located, file⟩
    exact ⟨place, located, content, modified, file⟩
  · rintro ⟨place, located, content, modified, file⟩
    exact ⟨content, modified, place, located, file⟩

/-- A source stays where it is. -/
theorem sourceAt?_of_grows (h : Grows t u) (hs : c.sourceAt? t view = some place) :
    c.sourceAt? u view = some place := by
  obtain ⟨located, file⟩ := sourceAt?_eq_some_iff.mp hs
  exact sourceAt?_eq_some_iff.mpr ⟨locate_ok_of_within h.within located, h.files place file⟩

theorem sourceAt?_eq_of_grows (h : Grows t u) (hs : c.has t view) :
    c.sourceAt? u view = c.sourceAt? t view := by
  obtain ⟨place, lies⟩ := has_iff.mp hs
  rw [lies, sourceAt?_of_grows h lies]

theorem has_of_grows (h : Grows t u) (hs : c.has t view) : c.has u view := by
  obtain ⟨place, lies⟩ := has_iff.mp hs
  exact has_iff.mpr ⟨place, sourceAt?_of_grows h lies⟩

/-- A parent leads back to one of some views. -/
def LeadsBack (c : Compiler) (t : Tree) (parent : Text) (views : List Text) : Prop :=
  c.has t parent ∧ ∃ view ∈ views, c.sourceAt? t view = c.sourceAt? t parent

instance (c : Compiler) (t : Tree) (parent : Text) (views : List Text) :
    Decidable (c.LeadsBack t parent views) :=
  inferInstanceAs (Decidable (_ ∧ _))

def Covers (c : Compiler) (t : Tree) (places : List Location) : Prop :=
  ∀ view place, c.sourceAt? t view = some place → place ∈ places

/-- Names without detours are told apart by their sources. -/
theorem eq_of_sourceAt? (plain : Options.Plain c.options.sourceExtension) {v w : Text}
    (hv : Options.IsCanonical v) (hw : Options.IsCanonical w) (sv : c.sourceAt? t v = some place)
    (sw : c.sourceAt? t w = some place) : v = w := by
  obtain ⟨base, places⟩ := Options.locate_source_of_canonical plain t
  obtain ⟨directory, hd, rfl⟩ := places v place hv (sourceAt?_eq_some_iff.mp sv).1
  obtain ⟨directory', hd', same⟩ := places w _ hw (sourceAt?_eq_some_iff.mp sw).1
  obtain rfl : directory = directory' := Except.ok.inj (hd.symm.trans hd')
  have names := congrArg (Text.join ['/']) (List.append_cancel_left same)
  rw [Path.join_parts, Path.join_parts] at names
  simpa using names

/-! ## Compiling takes no file away -/

theorem compileView_grows (c : Compiler) (force : Bool) (view : Text) (t : Tree) :
    Grows t (c.compileView force view t).2 := by
  rcases compileView_tree c force view t with unchanged | ⟨-, text, replaced⟩
  · rw [unchanged]
    exact prepared_grows c t
  · rw [replaced]
    exact (prepared_grows c t).trans (replace_grows ..)

/-- What has been compiled has a source. -/
theorem has_of_compileView {force : Bool} {report : Report}
    (h : c.compileView force view t = (.ok report, u)) : c.has u view := by
  obtain ⟨-, between, -, updated⟩ := Step.bind_ok h
  have grows : Grows between u := by
    have kept := update_tree c force (c.resolve view) between
    rw [updated] at kept
    rcases kept with rfl | ⟨text, rfl⟩
    · exact .refl _
    · exact replace_grows ..
  refine has_of_grows grows ?_
  show between.isFile (c.resolve view).source = true
  cases there : between.isFile (c.resolve view).source with
  | true => rfl
  | false => simp [update, there] at updated

end Compiler

namespace Renderer

variable {r : Renderer}

/-! ## Running a view takes no file away -/

theorem program_tree (r : Renderer) (view : Text) (t : Tree) :
    (r.program view t).2 = (r.compiler.compileView false view t).2 := by
  simp only [program, bind, Step.andThen]
  cases r.compiler.compileView false view t with
  | mk result u =>
    cases result with
    | error error => rfl
    | ok report =>
      simp only [Step.state]
      cases u.read report.files.artifact with
      | error fault => rfl
      | ok source =>
        simp only
        cases Artifact.parse source <;> rfl

/-- No part of a render takes away what a tree has. -/
theorem congruence_grows (r : Renderer) (base : Tree) :
    r.Congruence fun _ => SameBut fun t u => t = u ∧ Grows base t := by
  refine congruence_sameBut (fun t u h view => by rw [h.1]) fun view => ?_
  rintro t u ⟨rfl, grown⟩
  refine ⟨rfl, rfl, grown.trans ?_⟩
  rw [program_tree]
  exact r.compiler.compileView_grows false view t

theorem grows_of_respects {α : Type} {x : Rendering α} {s : RenderState}
    (h : Step.Respects (SameBut fun t u => t = u ∧ Grows s.tree t) x) :
    Grows s.tree (x s).2.tree :=
  (h s s ⟨rfl, rfl, rfl, rfl, .refl _⟩).2.tree.2

/-- A view that has been run, and all that is nested in it, has taken no file away. -/
theorem execute_grows (r : Renderer) (room : Nat) (view : Text) (s : RenderState) :
    Grows s.tree (r.execute (r.nestedAt room) view s).2.tree :=
  grows_of_respects <| execute_respects (congruence_grows r s.tree)
    (fun passes => nestedAt_respects (congruence_grows r s.tree) room (passes + 1)) 0 view

theorem inPass_grows (r : Renderer) (room : Nat) (view : Text) (program : Artifact.Program)
    (s : RenderState) : Grows s.tree
      (inPass (Run.nodes ⟨view, r.evaluate, r.hook, r.nestedAt room view⟩ program) s).2.tree := by
  have hR := congruence_grows r s.tree
  have inside : Step.Respects _
      (Run.nodes ⟨view, r.evaluate, r.hook, r.nestedAt room view⟩ program) :=
    Run.nodes_respects (hR.inside 0) (nestedAt_respects hR room 1 view) program
  exact grows_of_respects (@inPass_respects r _ hR.toFrame 0 _ inside)

/-- A view with a program has a source. -/
theorem has_of_program {view : Text} {t u : Tree} {program : Artifact.Program}
    (h : r.program view t = (.ok program, u)) : r.compiler.has u view := by
  obtain ⟨report, between, compiled, -⟩ := Step.bind_ok h
  have last : (r.program view t).2 = between := by rw [program_tree, compiled]
  obtain rfl : u = between := by rw [← last, h]
  exact Compiler.has_of_compileView compiled

/-- A view that has been run has a source. -/
theorem has_of_execute {room : Nat} {view : Text} {s u : RenderState} {output : List Fragment}
    (h : r.execute (r.nestedAt room) view s = (.ok output, u)) : r.compiler.has u.tree view := by
  obtain ⟨program, t, compiled, run⟩ := Step.bind_ok h
  have there : r.compiler.has t.tree view := by
    obtain ⟨tree, found, rfl⟩ := onTree_ok compiled
    exact has_of_program found
  have grown := inPass_grows r room view program t
  rw [run] at grown
  exact Compiler.has_of_grows grown there

/-! ## Chains -/

section Chain

variable (r : Renderer) (nested : Text → Text → Rendering Text) (first : Text) (s : RenderState)

/-- A view that is run in one state declares a parent and leaves another state. -/
def Declares (view : Text) (t : RenderState) (parent : Text) (u : RenderState) : Prop :=
  ∃ output, r.execute nested view t = (.ok output, u) ∧ u.layout.parent = some parent

/-- A chain that starts with a view comes to another, in some state, when it has run the ones in
between, the last first. -/
inductive Visits : Text → List Text → RenderState → Prop
  | start : Visits first [] (s.mapLayout (·.setParent none))
  | up {view parent : Text} {earlier : List Text} {t u : RenderState} :
      Visits view earlier t → r.Declares nested view t parent u → parent ∉ view :: earlier →
      r.compiler.has u.tree parent →
      Visits parent (view :: earlier)
        (u.mapLayout fun l => (l.setParent none).setLayer (l.layer + 1))

/-- Somewhere in a chain a parent is another name of a view that has run. -/
def Respelled : Prop :=
  ∃ view earlier t parent u, Visits r nested first s view earlier t ∧
    r.Declares nested view t parent u ∧ r.compiler.LeadsBack u.tree parent (view :: earlier) ∧
    parent ∉ view :: earlier

/-- What a chain makes of parents that lead back. -/
structure CyclesCaught : Prop where
  /-- A parent that leads back stops the chain. -/
  stopped : ∀ view earlier t parent u, Visits r nested first s view earlier t →
    r.Declares nested view t parent u → r.compiler.LeadsBack u.tree parent (view :: earlier) →
    earlier.length < r.maxLayouts → (r.chain nested first s).1 = .error (.layoutCycle parent)
  /-- No source is run twice. -/
  apart : ∀ view earlier t, Visits r nested first s view earlier t →
    ((view :: earlier).map (r.compiler.sourceAt? t.tree)).Nodup
  /-- There are as many sources as views; only the first may have none. -/
  bounded : ∀ view earlier t, Visits r nested first s view earlier t →
    ∀ places, r.compiler.Covers t.tree places → (view :: earlier).length ≤ max places.length 1
  /-- A chain ends: once there is room for all sources, more room changes nothing. -/
  ends : ∀ count, (∀ view earlier t, Visits r nested first s view earlier t →
      ∃ places, places.length ≤ count ∧ r.compiler.Covers t.tree places) →
    ∀ more, r.follow nested (max count 1 + more) [first] first (s.mapLayout (·.setParent none)) =
      r.follow nested (max count 1) [first] first (s.mapLayout (·.setParent none))

end Chain

section Nested

variable {nested : Text → Text → Rendering Text} {first view parent : Text} {earlier : List Text}
  {s t u : RenderState}

theorem Declares.follow_of_mem (h : r.Declares nested view t parent u) {visited : List Text}
    (hp : parent ∈ visited) (layouts : Nat) :
    r.follow nested (layouts + 1) visited view t =
      (.error (.layoutCycle parent), u.mapLayout (·.setParent none)) := by
  obtain ⟨output, run, declared⟩ := h
  simp only [follow_succ, run, declared, hp, ↓reduceIte]

theorem Declares.follow_of_notMem (h : r.Declares nested view t parent u) {visited : List Text}
    (hp : parent ∉ visited) (hs : r.compiler.has u.tree parent) (layouts : Nat) :
    r.follow nested (layouts + 1) visited view t =
      r.follow nested layouts (parent :: visited) parent
        (u.mapLayout fun l => (l.setParent none).setLayer (l.layer + 1)) := by
  obtain ⟨output, run, declared⟩ := h
  simp only [follow_succ, run, declared, hp, hs, ↓reduceIte]

/-- From a respelled parent a chain goes on to the source that it has run. -/
theorem CyclesCaught.not_respelled (h : CyclesCaught r nested first s) :
    ¬Respelled r nested first s := by
  rintro ⟨view, earlier, t, parent, u, visits, declares, ⟨hs, w, hw, same⟩, hp⟩
  have again := h.apart _ _ _ (visits.up declares hp hs)
  exact (List.nodup_cons.mp again).1 (List.mem_map.mpr ⟨w, hw, same⟩)

/-- A chain that comes to a view goes on from there. -/
theorem Visits.follow (h : Visits r nested first s view earlier t) (layouts : Nat) :
    r.follow nested (earlier.length + layouts) [first] first (s.mapLayout (·.setParent none)) =
      r.follow nested layouts (view :: earlier) view t := by
  induction h generalizing layouts with
  | start => rw [List.length_nil, Nat.zero_add]
  | @up view parent earlier t u _ declares hp hs ih =>
    rw [List.length_cons, Nat.add_assoc, Nat.add_comm 1 layouts, ih,
      declares.follow_of_notMem hp hs]

/-- A parent with the name of a view that has run stops the chain. -/
theorem Visits.stopped (h : Visits r nested first s view earlier t)
    (declares : r.Declares nested view t parent u) (hp : parent ∈ view :: earlier)
    (room : earlier.length < r.maxLayouts) :
    (r.chain nested first s).1 = .error (.layoutCycle parent) := by
  obtain ⟨layouts, hl⟩ : ∃ layouts, r.maxLayouts = earlier.length + (layouts + 1) :=
    ⟨r.maxLayouts - earlier.length - 1, by omega⟩
  rw [chain_eq, hl, h.follow, declares.follow_of_mem hp]

/-- A chain that is over before it runs out of room does not use more. -/
theorem Visits.follow_more (h : Visits r nested first s view earlier t) {layouts : Nat}
    (ended : ∀ view later t, Visits r nested first s view later t →
      later.length < earlier.length + layouts) (more : Nat) :
    r.follow nested (layouts + more) (view :: earlier) view t =
      r.follow nested layouts (view :: earlier) view t := by
  induction layouts generalizing view earlier t with
  | zero => exact absurd (ended view earlier t h) (by omega)
  | succ layouts ih =>
    rw [Nat.add_right_comm, follow_succ, follow_succ]
    cases run : r.execute nested view t with
    | mk result u =>
      cases result with
      | error error => rfl
      | ok output =>
        simp only
        cases declared : u.layout.parent with
        | none => rfl
        | some parent =>
          simp only
          by_cases hp : parent ∈ view :: earlier
          · simp only [hp, ↓reduceIte]
          · by_cases hs : r.compiler.has u.tree parent = true
            · simp only [hp, hs, ↓reduceIte]
              refine ih (.up h ⟨output, run, declared⟩ hp hs) fun view later t visits => ?_
              have := ended view later t visits
              simp only [List.length_cons]
              omega
            · simp only [hp, hs, Bool.false_eq_true, ↓reduceIte]

end Nested

section Room

variable {room : Nat} {first view parent : Text} {earlier : List Text} {s t u : RenderState}

theorem Declares.grows (h : r.Declares (r.nestedAt room) view t parent u) :
    Grows t.tree u.tree := by
  obtain ⟨output, run, -⟩ := h
  have grown := execute_grows r room view t
  rwa [run] at grown

/-- The views of a chain have sources, unless there is but one. -/
theorem Visits.has (h : Visits r (r.nestedAt room) first s view earlier t) (he : earlier ≠ []) :
    ∀ w ∈ view :: earlier, r.compiler.has t.tree w := by
  induction h with
  | start => exact absurd rfl he
  | @up view parent earlier t u _ declares _ hs ih =>
    rintro w (_ | ⟨_, hw⟩)
    · exact hs
    · rcases List.mem_cons.mp hw with rfl | earlierView
      · obtain ⟨output, run, -⟩ := declares
        show r.compiler.has u.tree w
        exact has_of_execute run
      · exact Compiler.has_of_grows declares.grows (ih (List.ne_nil_of_mem earlierView) w hw)

/-- Files stay, so the sources of a chain are where they have been. -/
theorem Visits.sources_eq (h : Visits r (r.nestedAt room) first s view earlier t)
    (he : earlier ≠ []) {tree : Tree} (grows : Grows t.tree tree) :
    (view :: earlier).map (r.compiler.sourceAt? tree) =
      (view :: earlier).map (r.compiler.sourceAt? t.tree) :=
  List.map_congr_left fun w hw => Compiler.sourceAt?_eq_of_grows grows (h.has he w hw)

/-- A chain without respelled parents runs no source twice. -/
theorem Visits.nodup (hr : ¬Respelled r (r.nestedAt room) first s)
    (h : Visits r (r.nestedAt room) first s view earlier t) :
    ((view :: earlier).map (r.compiler.sourceAt? t.tree)).Nodup := by
  induction h with
  | start => exact List.nodup_singleton _
  | @up view parent earlier t u visits declares hp hs ih =>
    refine List.nodup_cons.mpr ⟨fun again => ?_, ?_⟩
    · obtain ⟨w, hw, same⟩ := List.mem_map.mp again
      exact hr ⟨view, earlier, t, parent, u, visits, declares, ⟨hs, w, hw, same⟩, hp⟩
    · rcases eq_or_ne earlier [] with rfl | he
      · exact List.nodup_singleton _
      · exact (visits.sources_eq he declares.grows) ▸ ih

/-- Views with sources of their own are no more than there are sources. -/
theorem Visits.length_le (h : Visits r (r.nestedAt room) first s view earlier t)
    (apart : ((view :: earlier).map (r.compiler.sourceAt? t.tree)).Nodup) {places : List Location}
    (covers : r.compiler.Covers t.tree places) :
    (view :: earlier).length ≤ max places.length 1 := by
  rcases eq_or_ne earlier [] with rfl | he
  · exact Nat.le_max_right ..
  · have within : (view :: earlier).map (r.compiler.sourceAt? t.tree) ⊆ places.map some := by
      intro source hm
      obtain ⟨w, hw, rfl⟩ := List.mem_map.mp hm
      obtain ⟨place, lies⟩ := Compiler.has_iff.mp (h.has he w hw)
      rw [lies]
      exact List.mem_map_of_mem (covers w place lies)
    have le := (List.Nodup.subperm apart within).length_le
    rw [List.length_map, List.length_map] at le
    exact le.trans (Nat.le_max_left ..)

/-- Names tell the sources of a chain apart where no parent is respelled. -/
theorem cyclesCaught_of_not_respelled (hr : ¬Respelled r (r.nestedAt room) first s) :
    CyclesCaught r (r.nestedAt room) first s where
  stopped view earlier t parent u visits declares back room := by
    refine visits.stopped declares ?_ room
    by_contra hp
    exact hr ⟨view, earlier, t, parent, u, visits, declares, back, hp⟩
  apart view earlier t visits := visits.nodup hr
  bounded view earlier t visits places covers := visits.length_le (visits.nodup hr) covers
  ends count bound more := by
    refine Visits.follow_more .start (fun view later t visits => ?_) more
    obtain ⟨places, few, covers⟩ := bound view later t visits
    have le := visits.length_le (visits.nodup hr) covers
    simp only [List.length_cons, List.length_nil] at le ⊢
    omega

/-- A chain stops at all parents that lead back, runs no source twice and ends, just when no parent
is another name of a view that has run. -/
theorem cyclesCaught_iff (r : Renderer) (room : Nat) (first : Text) (s : RenderState) :
    CyclesCaught r (r.nestedAt room) first s ↔ ¬Respelled r (r.nestedAt room) first s :=
  ⟨CyclesCaught.not_respelled, cyclesCaught_of_not_respelled⟩

/-! ## Names without detours -/

theorem Visits.canonical (h : Visits r (r.nestedAt room) first s view earlier t)
    (start : Options.IsCanonical first)
    (parents : ∀ view earlier t parent u, Visits r (r.nestedAt room) first s view earlier t →
      r.Declares (r.nestedAt room) view t parent u → Options.IsCanonical parent) :
    ∀ w ∈ view :: earlier, Options.IsCanonical w := by
  induction h with
  | start =>
    intro w hw
    rw [List.mem_singleton.mp hw]
    exact start
  | @up view parent earlier t u visits declares _ _ ih =>
    rintro w (_ | ⟨_, hw⟩)
    · exact parents view earlier t parent u visits declares
    · exact ih w hw

/-- A chain of names without detours stops at all parents that lead back, runs no source twice and
ends. -/
theorem cyclesCaught_of_canonical (plain : Options.Plain r.compiler.options.sourceExtension)
    (start : Options.IsCanonical first)
    (parents : ∀ view earlier t parent u, Visits r (r.nestedAt room) first s view earlier t →
      r.Declares (r.nestedAt room) view t parent u → Options.IsCanonical parent) :
    CyclesCaught r (r.nestedAt room) first s := by
  refine cyclesCaught_of_not_respelled ?_
  rintro ⟨view, earlier, t, parent, u, visits, declares, ⟨hs, w, hw, same⟩, hp⟩
  obtain ⟨place, there⟩ := Compiler.has_iff.mp hs
  obtain rfl : w = parent := Compiler.eq_of_sourceAt? plain
    (visits.canonical start parents w hw) (parents view earlier t parent u visits declares)
    (same.trans there) there
  exact hp hw

end Room

/-! A page extends itself by another name, and runs twice. -/

section Example

/-- The page, which has been compiled, extends itself as long as it has not been run. -/
def selfExtending : Tree :=
  ⟨[(["v".toList], .directory 0o755 0), (["o".toList], .directory 0o755 0),
    (homeSource, .file (.text
      "@extends(n or '/home')@rawcode let n = 'up' @endrawcode Hi".toList) 1),
    (homeArtifact, .file (.text
      "<?vm layout.extend(n or '/home') ?><?vm let n = 'up' ?> Hi".toList) 2)], [], 5⟩

def rendering : Renderer := ⟨greeting, Expr.evaluate, none, 10⟩

/-- The first run declares the page itself, with a slash in front. -/
theorem execute_selfExtending :
    (match rendering.execute (rendering.nestedAt maxIncludes) "home".toList
        ((start .empty selfExtending).mapLayout (·.setParent none)) with
      | (.ok _, u) => decide (u.layout.parent = some "/home".toList ∧
          greeting.LeadsBack u.tree "/home".toList ["home".toList])
      | (.error _, _) => false) = true := by
  decide +kernel

theorem respelled_selfExtending : Respelled rendering (rendering.nestedAt maxIncludes)
    "home".toList (start .empty selfExtending) := by
  have run := execute_selfExtending
  cases executed : rendering.execute (rendering.nestedAt maxIncludes) "home".toList
      ((start .empty selfExtending).mapLayout (·.setParent none)) with
  | mk result u =>
    rw [executed] at run
    cases result with
    | error error => simp at run
    | ok output =>
      obtain ⟨declared, back⟩ := of_decide_eq_true run
      exact ⟨_, [], _, _, u, .start, ⟨output, executed, declared⟩, back, by decide⟩

/-- The second run declares a view that is not there, so that its output counts. -/
theorem chain_selfExtending :
    (match rendering.chain (rendering.nestedAt maxIncludes) "home".toList
        (start .empty selfExtending) with
      | (.ok output, _) => decide (output = [.text " Hi".toList])
      | (.error _, _) => false) = true := by
  decide +kernel

theorem render_selfExtending :
    (rendering.render "home".toList .empty selfExtending).1 = .ok " Hi".toList := by
  have run := chain_selfExtending
  unfold render
  generalize rendering.chain (rendering.nestedAt maxIncludes) "home".toList
    (start .empty selfExtending) = ended at run ⊢
  obtain ⟨result, u⟩ := ended
  cases result with
  | error error => simp at run
  | ok output =>
    obtain rfl := of_decide_eq_true run
    simp only [Layout.finish, Layout.resolve, resolveIn, List.append_nil]

theorem cycle_missed :
    ¬CyclesCaught rendering (rendering.nestedAt maxIncludes) "home".toList
        (start .empty selfExtending) ∧
      (rendering.render "home".toList .empty selfExtending).1 = .ok " Hi".toList :=
  ⟨fun caught => caught.not_respelled respelled_selfExtending, render_selfExtending⟩

/-! A page that extends itself with one slash more each time never comes to an end. -/

def climbing : Tree :=
  ⟨[(["v".toList], .directory 0o755 0), (["o".toList], .directory 0o755 0),
    (homeSource, .file (.text "@extends(n)@rawcode let n = n @endrawcode".toList) 1),
    (homeArtifact, .file (.text "<?vm layout.extend(n) ?><?vm let n = n ?>".toList) 2)], [], 5⟩

/-- Variables stand for their values with a slash in front. -/
def climber (layouts : Nat) : Renderer :=
  ⟨greeting, fun source bindings =>
    .ok (.ofText ('/' :: ((bindings source).getD .undefined).written)), none, layouts⟩

/-- The names that the page goes by: its own behind ever more slashes. -/
def homeBehindSlashes (count : Nat) : Text := List.replicate count '/' ++ "home".toList

def climbed (count : Nat) (phase : Phase) : RenderState :=
  ⟨climbing, ⟨phase, none, count, [], [], [], .empty, .empty⟩,
    ⟨⟨[("n".toList, .ofText (homeBehindSlashes count))]⟩, []⟩, []⟩

theorem resolve_homeBehindSlashes (count : Nat) :
    greeting.resolve (homeBehindSlashes count) = greeting.resolve "home".toList := by
  have dropped : (homeBehindSlashes count).dropWhile isSlash = "home".toList := by
    induction count with
    | zero => rfl
    | succ count ih =>
      rwa [homeBehindSlashes, List.replicate_succ, List.cons_append, List.dropWhile_cons_of_pos rfl]
  show greeting.options.resolve (homeBehindSlashes count) = greeting.options.resolve "home".toList
  unfold Options.resolve
  rw [dropped]
  rfl

theorem program_homeBehindSlashes (layouts count : Nat) :
    (climber layouts).program (homeBehindSlashes count) climbing =
      (.ok [.call .extend "n".toList, .assign "n".toList "n".toList], climbing) := by
  have compiled : greeting.compileView false (homeBehindSlashes count) climbing =
      (.ok ⟨greeting.resolve "home".toList, .fresh⟩, climbing) := by
    simp only [Compiler.compileView, resolve_homeBehindSlashes]
    decide +kernel
  have text : climbing.read (greeting.resolve "home".toList).artifact =
      .ok "<?vm layout.extend(n) ?><?vm let n = n ?>".toList := by
    decide +kernel
  have parsed : Artifact.parse "<?vm layout.extend(n) ?><?vm let n = n ?>".toList =
      .ok [.call .extend "n".toList, .assign "n".toList "n".toList] := by
    rfl
  have own : (climber layouts).compiler = greeting := rfl
  simp only [program, bind, Step.andThen, own, compiled, Step.state, text, parsed]
  rfl

variable (layouts : Nat) (nested : Text → Text → Rendering Text)

theorem declares_homeBehindSlashes (count : Nat) (phase : Phase) :
    (climber layouts).Declares nested (homeBehindSlashes count) (climbed count phase)
      (homeBehindSlashes (count + 1))
      ⟨climbing,
        ⟨.resolved, some (homeBehindSlashes (count + 1)), count, [], [], [], .empty, .empty⟩,
        ⟨⟨[("n".toList, .ofText (homeBehindSlashes (count + 1)))]⟩, []⟩, []⟩ := by
  refine ⟨[], ?_, rfl⟩
  simp only [execute, bind, Step.andThen, onTree, climbed, program_homeBehindSlashes]
  cases phase <;> rfl

def foot : RenderState := start ⟨[("n".toList, .text "home".toList)]⟩ climbing

/-- The chain comes to the page by ever longer names. -/
theorem visits_homeBehindSlashes (count : Nat) : ∃ earlier phase, earlier.length = count ∧
    (∀ name ∈ earlier, name.length < (homeBehindSlashes count).length) ∧
    Visits (climber layouts) nested "home".toList foot (homeBehindSlashes count) earlier
      (climbed count phase) := by
  induction count with
  | zero => exact ⟨[], .idle, rfl, by simp, .start⟩
  | succ count ih =>
    obtain ⟨earlier, phase, length, shorter, visits⟩ := ih
    have longer : (homeBehindSlashes count).length < (homeBehindSlashes (count + 1)).length := by
      simp [homeBehindSlashes, List.length_replicate]
    have shorter : ∀ name ∈ homeBehindSlashes count :: earlier,
        name.length < (homeBehindSlashes (count + 1)).length := by
      rintro name (_ | ⟨_, hm⟩)
      · exact longer
      · exact (shorter name hm).trans longer
    have there : greeting.has climbing (homeBehindSlashes (count + 1)) := by
      show climbing.isFile (greeting.resolve (homeBehindSlashes (count + 1))).source = true
      rw [resolve_homeBehindSlashes]
      decide +kernel
    refine ⟨homeBehindSlashes count :: earlier, .resolved, by rw [List.length_cons, length],
      shorter, ?_⟩
    exact visits.up (declares_homeBehindSlashes layouts nested count phase)
      (fun hm => (shorter _ hm).false) there

/-- However many layouts a chain may have, the page uses them up. -/
theorem chain_climbing : ((climber layouts).chain nested "home".toList foot).1 =
    .error (.endlessLayouts (homeBehindSlashes layouts)) := by
  obtain ⟨earlier, phase, length, -, visits⟩ := visits_homeBehindSlashes layouts nested layouts
  have last := visits.follow 0
  rw [Nat.add_zero, length] at last
  have own : (climber layouts).maxLayouts = layouts := rfl
  rw [chain_eq, own, last, follow_zero]

end Example

end Renderer

end Stencil
