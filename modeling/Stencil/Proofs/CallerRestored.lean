import Stencil.Proofs.Executed
import Stencil.Proofs.LayoutChain
import Stencil.Proofs.NestedView

/-!
# What a nested view leaves behind

The view that an include or an import renders works on the layout of its caller. It may leave sections
open, close more than it opens, declare parents, climb layers and nest further views. Proved here:

* `nestedAt_layout`: what it leaves of the layout is what it found, but for the phase and the imports;
* `caller_restored`: so an import changes nothing else, and an include does nothing more than add the
  text of the view to what the running pass writes to.

By itself a nested view leaves no section open and no output waiting, as all its passes have ended
(`Confined`); on top of the layout of its caller it leaves that layout, then (`Above.ended`).
-/

namespace Stencil

/-! ## Sections of one's own passes -/

namespace Layout

/-- So many passes are running, and every open section has been opened in one of them. -/
structure Confined (passes : Nat) (l : Layout) : Prop where
  grounded : l.Grounded
  passes : l.pass = passes
  started : ∀ top ∈ l.sections, 0 < top.pass

namespace Confined

variable {passes : Nat} {l : Layout}

theorem of_eq {m : Layout} (h : l.Confined passes) (sections : m.sections = l.sections)
    (pass : m.pass = l.pass) : m.Confined passes :=
  ⟨h.grounded.of_eq sections pass, pass.trans h.passes, sections ▸ h.started⟩

theorem closeSection (h : l.Confined passes) : l.closeSection.Confined passes := by
  refine ⟨h.grounded.closeSection, (pass_closeSection l).trans h.passes, ?_⟩
  unfold Layout.closeSection
  split
  · next top rest hs =>
    split
    · exact fun other ho => h.started other (hs ▸ List.mem_cons_of_mem _ ho)
    · exact h.started
  · exact h.started

theorem openSection (h : l.Confined (passes + 1)) (name : Text) :
    (l.openSection name).Confined (passes + 1) := by
  refine ⟨h.grounded.openSection name, (pass_closeSection l).trans h.passes, fun top ht => ?_⟩
  rcases List.mem_cons.mp ht with rfl | ht
  · show 0 < l.pass
    rw [h.passes]
    exact Nat.succ_pos passes
  · exact h.closeSection.started top ht

theorem writeWith (h : l.Confined passes) (add : List Fragment → List Fragment) :
    (l.writeWith add).Confined passes := by
  refine ⟨h.grounded.writeWith add, (pass_writeWith l add).trans h.passes, ?_⟩
  unfold Layout.writeWith
  split
  · next top rest hs =>
    have started := h.started
    rw [hs, List.forall_mem_cons] at started
    split
    · exact List.forall_mem_cons.mpr started
    · exact h.started
  · exact h.started

theorem beginPass (h : l.Confined passes) : l.beginPass.Confined (passes + 1) :=
  ⟨⟨fun top ht => Nat.le_succ_of_le (h.grounded.bounded top ht), h.grounded.ordered⟩,
    congrArg Nat.succ h.passes, h.started⟩

theorem endPass (h : l.Confined (passes + 1)) : l.endPass.2.Confined passes := by
  refine ⟨h.grounded.endPass, ?_, fun top ht => ?_⟩
  · have pass : l.endPass.2.pass = l.pass - 1 := List.length_tail
    rw [pass, h.passes]
    rfl
  · have left : l.endPass.2.sections = l.sections.dropWhile fun top => decide (top.pass = l.pass) :=
      closeWhile_fst l.pass l.layer l.sections l.regions
    rw [left] at ht
    exact h.started top ((List.dropWhile_suffix _).subset ht)

/-- When all passes have ended, all sections are closed. -/
theorem sections_eq_nil (h : l.Confined 0) : l.sections = [] := by
  refine List.eq_nil_iff_forall_not_mem.mpr fun top ht => ?_
  have bounded := h.grounded.bounded top ht
  rw [h.passes] at bounded
  exact Nat.not_lt_zero _ (Nat.lt_of_lt_of_le (h.started top ht) bounded)

end Confined

/-- When all passes of a nested view have ended, what is on top of the layout of its caller is gone. -/
theorem Above.ended {outer own l : Layout} (h : Above outer own l) (ended : own.Confined 0) :
    l.output = outer.output ∧ l.suspended = outer.suspended ∧ l.sections = outer.sections := by
  have sections := h.sections
  rw [ended.sections_eq_nil] at sections
  obtain ⟨written, hw, hl⟩ := h.outputs
  have none : written = [] := by
    have length := congrArg List.length hw
    have passes : own.suspended.length = 0 := ended.passes
    simp only [List.length_cons, List.length_append, List.length_nil, passes] at length
    exact List.length_eq_zero_iff.mp (by omega)
  rw [none] at hl
  exact ⟨(List.cons.inj hl).1, (List.cons.inj hl).2, sections⟩

end Layout

/-! ## Nested views -/

/-- A state and itself, in which so many passes are running and no section is open but in these. -/
def Contained (passes : Nat) (s t : RenderState) : Prop := s = t ∧ s.layout.Confined passes

namespace Contained

variable {passes count : Nat} {s t : RenderState}

theorem mapLayout (h : Contained passes s t) {f : Layout → Layout}
    (hf : ∀ l : Layout, l.Confined passes → (f l).Confined count) :
    Contained count (s.mapLayout f) (t.mapLayout f) :=
  ⟨congrArg (RenderState.mapLayout f) h.1, hf s.layout h.2⟩

end Contained


theorem contained_congruence (passes : Nat) : Run.Congruence (Contained (passes + 1)) where
  bindings s t h := congrArg RenderState.bindings h.1
  mapScope s t f h := ⟨congrArg (RenderState.mapScope f) h.1, h.2⟩
  writeText s t text h := h.mapLayout fun l hl => by
    rw [Layout.writeText_eq_writeWith]
    exact hl.writeWith _
  writePlaceholder s t name h := h.mapLayout fun l hl => hl.writeWith _
  declareParent s t view h := h.mapLayout fun l hl => hl.of_eq rfl rfl
  openSection s t name h := h.mapLayout fun l hl => hl.openSection name
  closeSection s t h := h.mapLayout fun l hl => hl.closeSection
  setImport s t name content h := h.mapLayout fun l hl => hl.of_eq rfl rfl

namespace Renderer

variable {r : Renderer} {s t : RenderState}

/-- Every part of a render ends the passes that it begins, and closes the sections in them. -/
theorem congruence_contained : r.Congruence Contained where
  inside := contained_congruence
  program passes view s t h := by
    obtain ⟨rfl, confined⟩ := h
    exact ⟨rfl, rfl, confined⟩
  has passes s t h view := by rw [h.1]
  includes passes s t h := by rw [h.1]
  parent passes s t h := by rw [h.1]
  layer passes s t h := by rw [h.1]
  regions passes s t h := by rw [h.1]
  setParent passes s t parent h := h.mapLayout fun l hl => hl.of_eq rfl rfl
  setLayer passes s t layer h := h.mapLayout fun l hl => hl.of_eq rfl rfl
  beginPass passes s t h := h.mapLayout fun l hl => hl.beginPass
  endPass passes s t h := ⟨by rw [h.1], h.mapLayout fun l hl => hl.endPass⟩
  enter passes s t target h := by
    obtain ⟨rfl, confined⟩ := h
    exact ⟨rfl, confined.grounded.of_eq rfl rfl, confined.passes, confined.started⟩
  leave passes s t scope h := by
    obtain ⟨rfl, confined⟩ := h
    exact ⟨rfl, confined.grounded.of_eq rfl rfl, confined.passes, confined.started⟩

/-- A chain leaves all that has been written before and all sections that are open. -/
theorem follow_layout {room fuel : Nat} {visited : List Text} {view : Text} {output : List Fragment}
    (h : r.follow (r.nestedAt room) fuel visited view s = (.ok output, t)) (hg : s.layout.Grounded) :
    t.layout.output = s.layout.output ∧ t.layout.suspended = s.layout.suspended ∧
      t.layout.sections = s.layout.sections := by
  -- The chain by itself, from the same parent, layer, regions and imports on.
  let own : RenderState :=
    { s with layout := { s.layout with output := [], suspended := [], sections := [] } }
  have above : OnTop s.layout 0 own s :=
    ⟨⟨rfl, rfl, rfl, rfl, ⟨[], rfl, rfl⟩, rfl⟩, rfl, rfl, rfl, rfl⟩
  have confined : own.layout.Confined 0 :=
    ⟨⟨by simp [own], by simp [own]⟩, rfl, by simp [own]⟩
  have hR : r.Congruence (OnTop s.layout) := congruence_onTop hg
  have hR' : r.Congruence Contained := congruence_contained
  obtain ⟨-, onTop⟩ := follow_respects hR (fun passes => nestedAt_respects hR room (passes + 1))
    0 fuel visited view own s above
  obtain ⟨-, -, ended⟩ := follow_respects hR' (fun passes => nestedAt_respects hR' room (passes + 1))
    0 fuel visited view own own ⟨rfl, confined⟩
  rw [h] at onTop
  exact onTop.layout.ended ended

/-- A nested view leaves the layout of its caller, but for the phase and the imports. -/
theorem nestedAt_layout {room : Nat} {caller target output : Text}
    (h : r.nestedAt room caller target s = (.ok output, t)) (hg : s.layout.Grounded) :
    ∃ phase imports, t.layout = { s.layout with phase, imports } := by
  cases room with
  | zero => simp [nestedAt_zero] at h
  | succ room =>
    obtain ⟨-, fragments, u, chained, -, rfl⟩ := nestedAt_ok h
    obtain ⟨v, followed, rfl⟩ := chain_ok chained
    obtain ⟨written, suspended, sections⟩ := follow_layout followed (hg.of_eq rfl rfl)
    exact ⟨v.layout.phase, v.layout.imports,
      Layout.mk.injEq .. ▸ ⟨rfl, rfl, rfl, written, suspended, sections, rfl, rfl⟩⟩

end Renderer

/-! ## What an include adds -/

namespace Layout

def openNames (l : Layout) : List (Text × Nat) := l.sections.map fun top => (top.name, top.pass)

/-- What has been written where the running pass writes: to its open section, or else to its output. -/
def sink (l : Layout) : List Fragment :=
  match l.sections with
  | top :: _ => if top.pass = l.pass then top.body else l.output
  | [] => l.output

/-- What the running pass and the open sections hold besides: its output when one of its sections is
open, and the bodies of the other sections. -/
def aside (l : Layout) : List (List Fragment) :=
  match l.sections with
  | top :: rest =>
    if top.pass = l.pass then l.output :: rest.map OpenSection.body
    else (top :: rest).map OpenSection.body
  | [] => []

/-- A layout is the same but for the phase, the imports and a text that has been added where the running
pass writes. -/
structure Gains (text : Text) (before after : Layout) : Prop where
  layer : after.layer = before.layer
  regions : after.regions = before.regions
  parent : after.parent = before.parent
  suspended : after.suspended = before.suspended
  openNames : after.openNames = before.openNames
  sink : after.sink = Fragment.pushText text before.sink
  aside : after.aside = before.aside

theorem gains_writeText (text : Text) (l : Layout) : Gains text l (l.writeText text) := by
  rw [writeText_eq_writeWith]
  unfold writeWith
  split
  · next top rest hs =>
    by_cases hp : top.pass = l.pass
    · rw [if_pos hp]
      have hp' : top.pass = l.suspended.length := hp
      exact ⟨rfl, rfl, rfl, rfl, by simp [Layout.openNames, hs], by simp [Layout.sink, Layout.pass, hs, hp'],
        by simp [Layout.aside, Layout.pass, hs, hp']⟩
    · rw [if_neg hp]
      have hp' : top.pass ≠ l.suspended.length := hp
      exact ⟨rfl, rfl, rfl, rfl, rfl, by simp [Layout.sink, Layout.pass, hs, hp'],
        by simp [Layout.aside, Layout.pass, hs, hp']⟩
  · next hs => exact ⟨rfl, rfl, rfl, rfl, rfl, by simp [Layout.sink, hs], by simp [Layout.aside, hs]⟩

/-- What is gained does not depend on the phase and the imports. -/
theorem Gains.of_kept {text : Text} {l after : Layout} {phase : Phase} {imports : NameMap Text}
    (h : Gains text { l with phase, imports } after) : Gains text l after :=
  ⟨h.layer, h.regions, h.parent, h.suspended, h.openNames, h.sink, h.aside⟩

end Layout

/-! ## Includes and imports -/

namespace Renderer

variable {r : Renderer} {s t : RenderState}

/-- The text of an include: what the view that it asks for answers, and none when it names no view. -/
def IncludesText (r : Renderer) (room : Nat) (view source : Text) (s : RenderState) (text : Text) :
    Prop :=
  match (r.run room view).includeRequests (Text.arguments source) s with
  | [] => text = []
  | (target, asked) :: _ => ∃ last, r.nestedAt room view target asked = (.ok text, last)

/-- An include adds the text of its view to what the running pass writes to, an import nothing, and both
leave all else of the layout as it was but for the phase and the imports. -/
theorem caller_restored (r : Renderer) (room : Nat) (view source : Text) {s : RenderState}
    (reachable : s.layout.Reachable) :
    (∀ t, Run.node (r.run room view) (.call .includeView source) s = (.ok (), t) →
      ∃ text, r.IncludesText room view source s text ∧ Layout.Gains text s.layout t.layout) ∧
    ∀ t, Run.node (r.run room view) (.call .importView source) s = (.ok (), t) →
      ∃ phase imports, t.layout = { s.layout with phase, imports } := by
  have hg := reachable.grounded
  constructor
  · intro t h
    unfold Run.node at h
    rcases Run.includeView_ok h with
      ⟨none, rfl⟩ | ⟨target, asked, output, last, _, requests, rfl, ran, rfl⟩
    · exact ⟨[], by rw [IncludesText, none], Layout.gains_writeText [] t.layout⟩
    · refine ⟨output, by rw [IncludesText, requests]; exact ⟨last, ran⟩, ?_⟩
      have kept := nestedAt_layout ran hg
      obtain ⟨phase, imports, kept⟩ :
        ∃ phase imports, last.layout = { s.layout with phase, imports } := kept
      show Layout.Gains output s.layout (last.layout.writeText output)
      rw [kept]
      exact (Layout.gains_writeText output _).of_kept
  · intro t h
    unfold Run.node at h
    rcases Run.importView_ok h with ⟨-, rfl⟩ | ⟨target, name, output, last, -, ran, rfl⟩
    · exact ⟨t.layout.phase, t.layout.imports, rfl⟩
    · obtain ⟨phase, imports, kept⟩ := nestedAt_layout ran hg
      refine ⟨phase, imports.insert name output, ?_⟩
      show last.layout.setImport name output = _
      rw [kept]
      rfl

/-! The page includes the card into its open section, or imports it. -/

section Example

def pageState : RenderState := ⟨cardFiles, pageLayout, Scope.ofData .empty, []⟩

theorem node_card : ∀ operation ∈ [Artifact.Call.includeView, .importView],
    (Run.node (pages.run 64 "page".toList) (.call operation "card".toList) pageState).1 =
      .ok () := by
  decide +kernel

theorem includesText_card {text : Text}
    (h : pages.IncludesText 64 "page".toList "card".toList pageState text) : text = "!".toList := by
  have requests : (pages.run 64 "page".toList).includeRequests
      (Text.arguments "card".toList) pageState =
        [("card".toList, ⟨cardFiles, pageLayout, (Scope.ofData .empty).push [], []⟩)] := rfl
  have card : (pages.nestedAt 64 "page".toList "card".toList
      ⟨cardFiles, pageLayout, (Scope.ofData .empty).push [], []⟩).1 = .ok "!".toList :=
    nested_card_of_chain (by decide +kernel)
  rw [IncludesText, requests] at h
  obtain ⟨last, ran⟩ := h
  rw [ran] at card
  exact Except.ok.inj card

/-- The section of the page gets the text of the card. -/
theorem caller_restored_card :
    pageState.layout.Reachable ∧
      (∃ t, Run.node (pages.run 64 "page".toList) (.call .includeView "card".toList) pageState =
          (.ok (), t) ∧ Layout.Gains "!".toList pageLayout t.layout) ∧
      ∃ t, Run.node (pages.run 64 "page".toList) (.call .importView "card".toList) pageState =
          (.ok (), t) ∧ ∃ phase imports, t.layout = { pageLayout with phase, imports } := by
  have reachable : pageState.layout.Reachable := reachable_pageLayout
  obtain ⟨included, imported⟩ := caller_restored pages 64 "page".toList "card".toList reachable
  obtain ⟨t, ht⟩ := Step.exists_of_fst (node_card .includeView (by simp))
  obtain ⟨u, hu⟩ := Step.exists_of_fst (node_card .importView (by simp))
  obtain ⟨text, answered, gains⟩ := included t ht
  obtain rfl := includesText_card answered
  exact ⟨reachable, ⟨t, ht, gains⟩, u, hu, imported u hu⟩

end Example

end Renderer

end Stencil
