import Stencil.Proofs.CallerLayout
import Stencil.Proofs.LayoutChain
import Stencil.Proofs.Succeeded

/-!
# Nested views

An included or imported view runs on the layout of its caller. Proved here:

* `nested_alone`: it renders as it would on a layout that has nothing but the imports of the caller;
* `nested_isolated`: so it renders alike for all callers with the same imports, whatever sections are
  open, regions filled, outputs waiting or parents declared there.
-/

namespace Stencil

open Step

/-- Two states of the render of a nested view: by itself, and on top of the layout of a caller. -/
structure OnTop (outer : Layout) (passes : Nat) (s t : RenderState) : Prop where
  layout : Layout.Above outer s.layout t.layout
  passes : s.layout.pass = passes
  tree : s.tree = t.tree
  scope : s.scope = t.scope
  includes : s.includes = t.includes

variable {outer : Layout} {passes : Nat} {s t : RenderState}

theorem OnTop.mapLayout (h : OnTop outer passes s t) {f : Layout → Layout} {count : Nat}
    (layout : Layout.Above outer (f s.layout) (f t.layout)) (pass : (f s.layout).pass = count) :
    OnTop outer count (s.mapLayout f) (t.mapLayout f) :=
  ⟨layout, pass, h.tree, h.scope, h.includes⟩

/-- No node of a program tells the two apart. -/
theorem onTop_congruence (hg : outer.Grounded) (passes : Nat) :
    Run.Congruence (OnTop outer (passes + 1)) := by
  have running {s t : RenderState} (h : OnTop outer (passes + 1) s t) : 0 < s.layout.pass := by
    rw [h.passes]
    exact Nat.succ_pos passes
  constructor
  case bindings =>
    intro s t h
    simp only [RenderState.bindings, h.scope, h.layout.imports]
  case mapScope =>
    intro s t f h
    exact ⟨h.layout, h.passes, h.tree, congrArg f h.scope, h.includes⟩
  case writeText =>
    intro s t text h
    exact h.mapLayout (h.layout.writeText hg (running h) text)
      ((Layout.pass_writeText s.layout text).trans h.passes)
  case writePlaceholder =>
    intro s t name h
    exact h.mapLayout (h.layout.writeWith hg (running h) _)
      ((Layout.pass_writeWith s.layout _).trans h.passes)
  case declareParent =>
    intro s t view h
    exact h.mapLayout (h.layout.declareParent view) h.passes
  case openSection =>
    intro s t name h
    exact h.mapLayout (h.layout.openSection hg (running h) name)
      ((Layout.pass_closeSection s.layout).trans h.passes)
  case closeSection =>
    intro s t h
    exact h.mapLayout (h.layout.closeSection hg (running h))
      ((Layout.pass_closeSection s.layout).trans h.passes)
  case setImport =>
    intro s t name content h
    exact h.mapLayout (h.layout.setImport name content) h.passes

namespace Renderer

variable {r : Renderer}

/-- No part of a render tells the two apart. -/
theorem congruence_onTop (hg : outer.Grounded) : r.Congruence (OnTop outer) where
  inside passes := onTop_congruence hg passes
  program passes view s t h := by
    simp only [onTree, h.tree, true_and]
    exact ⟨h.layout, h.passes, rfl, h.scope, h.includes⟩
  has passes s t h view := by rw [h.tree]
  includes passes s t h := h.includes
  parent passes s t h := h.layout.parent.symm
  layer passes s t h := h.layout.layer.symm
  regions passes s t h := h.layout.regions.symm
  setParent passes s t parent h := h.mapLayout (h.layout.setParent parent) h.passes
  setLayer passes s t layer h := h.mapLayout (h.layout.setLayer layer) h.passes
  beginPass passes s t h := h.mapLayout h.layout.beginPass (congrArg Nat.succ h.passes)
  endPass passes s t h := by
    have running : 0 < s.layout.pass := by
      rw [h.passes]
      exact Nat.succ_pos passes
    obtain ⟨output, layout⟩ := h.layout.endPass hg running
    have pass : s.layout.endPass.2.pass = s.layout.pass - 1 := List.length_tail
    refine ⟨output.symm, h.mapLayout layout ?_⟩
    rw [pass, h.passes]
    rfl
  enter passes s t target h :=
    ⟨h.layout.enterScope, h.passes, h.tree, h.scope, congrArg (target :: ·) h.includes⟩
  leave passes s t scope h :=
    ⟨h.layout.leaveScope scope, h.passes, h.tree, h.scope, congrArg List.tail h.includes⟩

theorem inNested_fst (target : Text) (x : Rendering (List Fragment)) (s : RenderState) :
    (inNested target x s).1 =
      (x ⟨s.tree, s.layout.enterScope.2, s.scope, target :: s.includes⟩).1.map
        (x ⟨s.tree, s.layout.enterScope.2, s.scope, target :: s.includes⟩).2.layout.resolve := rfl

/-- A layout that has nothing but imports. -/
def bare (imports : NameMap Text) : Layout := { Layout.initial with imports }

/-- Two renders of a nested view have the same result, and leave the same but for the layout. -/
structure SameOutcome {α : Type} (left right : Except Error α × RenderState) : Prop where
  result : left.1 = right.1
  imports : left.2.layout.imports = right.2.layout.imports
  tree : left.2.tree = right.2.tree
  scope : left.2.scope = right.2.scope
  includes : left.2.includes = right.2.includes

/-- The chain of a nested view, whose start is the same but for what the caller has. -/
theorem inNested_alone (hg : s.layout.Grounded) {nested : Text → Text → Rendering Text}
    (hn : ∀ passes caller target,
      Respects (OnTop s.layout (passes + 1)) (nested caller target)) (target : Text) :
    SameOutcome (inNested target (r.chain nested target) { s with layout := bare s.layout.imports })
      (inNested target (r.chain nested target) s) := by
  have started : OnTop s.layout 0
      ⟨s.tree, (bare s.layout.imports).enterScope.2.setParent none, s.scope, target :: s.includes⟩
      ⟨s.tree, s.layout.enterScope.2.setParent none, s.scope, target :: s.includes⟩ :=
    ⟨⟨rfl, rfl, rfl, rfl, ⟨[], rfl, rfl⟩, rfl⟩, rfl, rfl, rfl, rfl⟩
  obtain ⟨result, states⟩ := follow_respects (congruence_onTop hg) hn 0 r.maxLayouts [target] target
    _ _ started
  simp only [inNested, chain_eq, RenderState.mapLayout]
  generalize r.follow nested r.maxLayouts [target] target
    ⟨s.tree, (bare s.layout.imports).enterScope.2.setParent none, s.scope, target :: s.includes⟩ =
    alone at result states ⊢
  generalize r.follow nested r.maxLayouts [target] target
    ⟨s.tree, s.layout.enterScope.2.setParent none, s.scope, target :: s.includes⟩ =
    there at result states ⊢
  obtain ⟨outcome, t⟩ := alone
  obtain ⟨outcome', u⟩ := there
  obtain rfl : outcome = outcome' := result
  cases outcome with
  | error error =>
    exact ⟨rfl, states.layout.imports.symm, states.tree, states.scope,
      congrArg List.tail states.includes⟩
  | ok output =>
    refine ⟨?_, states.layout.imports.symm, states.tree, states.scope,
      congrArg List.tail states.includes⟩
    show Except.ok (resolveIn t.layout.regions [] output) =
      Except.ok (resolveIn u.layout.regions [] output)
    rw [states.layout.regions]

/-- A nested view renders on the layout of its caller as it does by itself. -/
theorem nested_alone (r : Renderer) (caller target : Text) (s : RenderState)
    (hg : s.layout.Grounded) :
    SameOutcome (r.nested caller target { s with layout := bare s.layout.imports })
      (r.nested caller target s) := by
  unfold nested
  generalize maxIncludes - s.includes.length = room
  cases room with
  | zero => exact ⟨rfl, rfl, rfl, rfl, rfl⟩
  | succ room =>
    rw [nestedAt_succ, nestedAt_succ]
    split
    · exact ⟨rfl, rfl, rfl, rfl, rfl⟩
    · exact inNested_alone hg
        (fun passes => nestedAt_respects (congruence_onTop hg) room (passes + 1)) target

/-- A nested view cannot tell layouts apart that have the same imports. -/
theorem nested_isolated (r : Renderer) (caller target : Text) (tree : Files.Tree) (scope : Scope)
    (includes : List Text) (l m : Layout) (hl : l.Reachable) (hm : m.Reachable)
    (imports : l.imports = m.imports) :
    SameOutcome (r.nested caller target ⟨tree, l, scope, includes⟩)
      (r.nested caller target ⟨tree, m, scope, includes⟩) := by
  have left := nested_alone r caller target ⟨tree, l, scope, includes⟩ hl.grounded
  have right := nested_alone r caller target ⟨tree, m, scope, includes⟩ hm.grounded
  rw [imports] at left
  exact ⟨left.result.symm.trans right.result, left.imports.symm.trans right.imports,
    left.tree.symm.trans right.tree, left.scope.symm.trans right.scope,
    left.includes.symm.trans right.includes⟩

/-! A page has filled its region of the name that the card inside it has a place for. -/

section Example

def pages : Renderer :=
  ⟨⟨⟨"v/".toList, "o/".toList, "tmpl".toList, "out".toList, []⟩, RuleTable.builtin⟩,
    fun source _ => .ok (.ofText source), none, 10⟩

def cardFiles : Files.Tree :=
  ⟨[(["v".toList], .directory 0o755 0), (["o".toList], .directory 0o755 0),
    (["v".toList, "card.tmpl".toList], .file (.text "@content(title)!".toList) 1),
    (["o".toList, "card.out".toList],
      .file (.text "<?vm layout.content(title) ?>!".toList) 2)], [], 5⟩

/-- The layout of the page: one region is filled, another section is open. -/
def pageLayout : Layout :=
  ((((Layout.initial.setLayer 1).beginPass.openSection "title".toList).writeText
    "Page".toList).openSection "body".toList).declareParent "site".toList

theorem reachable_pageLayout : pageLayout.Reachable :=
  .declareParent _ (.openSection _ (.writeText _ (.openSection _ (.beginPass (.setLayer _ .initial)))))

/-- What the card writes by itself. -/
theorem chain_card :
    (match pages.chain (pages.nestedAt 63) "card".toList
        ⟨cardFiles, Layout.initial.enterScope.2, Scope.ofData .empty, ["card".toList]⟩ with
      | (.ok output, t) => decide (output = [.placeholder "title".toList, .text "!".toList] ∧
          t.layout.regions = .empty)
      | (.error _, _) => false) = true := by
  decide +kernel

theorem nested_card_of_chain {layout : Layout} {scope : Scope}
    (card : (match pages.chain (pages.nestedAt 63) "card".toList
        ⟨cardFiles, layout.enterScope.2, scope, ["card".toList]⟩ with
      | (.ok output, t) => decide (output = [.placeholder "title".toList, .text "!".toList] ∧
          t.layout.regions = .empty)
      | (.error _, _) => false) = true) :
    (pages.nestedAt 64 "page".toList "card".toList ⟨cardFiles, layout, scope, []⟩).1 =
      .ok "!".toList := by
  rw [nestedAt_succ, if_neg List.not_mem_nil, inNested_fst]
  generalize pages.chain (pages.nestedAt 63) "card".toList
    ⟨cardFiles, layout.enterScope.2, scope, ["card".toList]⟩ = outcome at card ⊢
  obtain ⟨result, t⟩ := outcome
  cases result with
  | error error => simp at card
  | ok output =>
    obtain ⟨rfl, regions⟩ := of_decide_eq_true card
    simp [Except.map, Layout.resolve, regions, resolveIn_placeholder]

theorem nested_card : (pages.nested "page".toList "card".toList
    ⟨cardFiles, Layout.initial, Scope.ofData .empty, []⟩).1 = .ok "!".toList := by
  unfold nested
  rw [show maxIncludes - ([] : List Text).length = 64 from rfl]
  exact nested_card_of_chain chain_card

/-- The card does not get the region of the page. -/
theorem nested_isolated_card :
    Layout.initial.Reachable ∧ pageLayout.Reachable ∧
      Layout.initial.imports = pageLayout.imports ∧
      pageLayout.region? "title".toList = some "Page".toList ∧
      SameOutcome
        (pages.nested "page".toList "card".toList
          ⟨cardFiles, Layout.initial, Scope.ofData .empty, []⟩)
        (pages.nested "page".toList "card".toList
          ⟨cardFiles, pageLayout, Scope.ofData .empty, []⟩) ∧
      (pages.nested "page".toList "card".toList
        ⟨cardFiles, pageLayout, Scope.ofData .empty, []⟩).1 = .ok "!".toList := by
  have same := nested_isolated pages "page".toList "card".toList cardFiles (Scope.ofData .empty) []
    Layout.initial pageLayout .initial reachable_pageLayout rfl
  have filled : pageLayout.regions.find? "title".toList =
      some ⟨1, [.text "Page".toList]⟩ := by decide
  have region : pageLayout.region? "title".toList = some "Page".toList := by
    rw [Layout.region?, filled]
    simp [Layout.resolve]
  exact ⟨.initial, reachable_pageLayout, rfl, region, same, same.result.symm.trans nested_card⟩

end Example

end Renderer

end Stencil
