import Mathlib.Data.List.Basic
import Stencil.Layout.Resolve

/-!
# A layout on top of another

A nested view does not get a layout of its own: it works on that of its caller, in passes of higher
numbers. `Layout.Above` says that a layout is, but for its phase, the one that the nested view would
have by itself, put on top of the layout of the caller: its sections come first with their passes
counted on from those of the caller, and what the caller has written waits below its own outputs.

* `Reachable.grounded`: in every layout that the operations lead to, open sections belong to the
  running pass or to one around it, the innermost first.
* `Above.writeWith`, `Above.closeSection`, `Above.endPass` and the like: on top of a grounded layout
  every operation does what it does by itself, as long as a pass of the nested view is running.
-/

namespace Stencil.Layout

/-! ## Reachable layouts -/

/-- The layouts that the operations lead to. -/
inductive Reachable : Layout → Prop
  | initial : Reachable initial
  | declareParent {l} (view : Text) : Reachable l → Reachable (l.declareParent view)
  | setParent {l} (parent : Option Text) : Reachable l → Reachable (l.setParent parent)
  | setLayer {l} (layer : Nat) : Reachable l → Reachable (l.setLayer layer)
  | openSection {l} (name : Text) : Reachable l → Reachable (l.openSection name)
  | closeSection {l} : Reachable l → Reachable l.closeSection
  | writeText {l} (text : Text) : Reachable l → Reachable (l.writeText text)
  | writePlaceholder {l} (name : Text) : Reachable l → Reachable (l.writePlaceholder name)
  | beginPass {l} : Reachable l → Reachable l.beginPass
  | endPass {l} : Reachable l → Reachable l.endPass.2
  | enterScope {l} : Reachable l → Reachable l.enterScope.2
  | leaveScope {l} (scope : RegionScope) : Reachable l → Reachable (l.leaveScope scope)
  | setImport {l} (name content : Text) : Reachable l → Reachable (l.setImport name content)
  | finish {l} (fragments : List Fragment) : Reachable l → Reachable (l.finish fragments).2

/-- Open sections belong to the running pass or to one around it, the innermost first. -/
structure Grounded (l : Layout) : Prop where
  bounded : ∀ top ∈ l.sections, top.pass ≤ l.pass
  ordered : l.sections.Pairwise fun inner outer => outer.pass ≤ inner.pass

theorem Grounded.of_eq {l m : Layout} (h : l.Grounded) (hs : m.sections = l.sections)
    (hp : m.pass = l.pass) : m.Grounded :=
  ⟨hs ▸ hp ▸ h.bounded, hs ▸ h.ordered⟩

theorem Grounded.tail {l : Layout} {top : OpenSection} {rest : List OpenSection}
    (h : l.Grounded) (hs : l.sections = top :: rest) :
    ({ l with sections := rest } : Layout).Grounded := by
  obtain ⟨bounded, ordered⟩ := h
  rw [hs] at bounded ordered
  exact ⟨fun section' hm => bounded section' (List.mem_cons_of_mem _ hm),
    (List.pairwise_cons.mp ordered).2⟩

theorem Grounded.push {l : Layout} (h : l.Grounded) (name : Text) (body : List Fragment) :
    ({ l with sections := ⟨name, l.pass, body⟩ :: l.sections } : Layout).Grounded := by
  obtain ⟨bounded, ordered⟩ := h
  refine ⟨?_, List.pairwise_cons.mpr ⟨bounded, ordered⟩⟩
  intro top hm
  rcases List.mem_cons.mp hm with rfl | hm
  · exact Nat.le_refl _
  · exact bounded top hm

theorem pass_closeSection (l : Layout) : l.closeSection.pass = l.pass := by
  unfold closeSection
  split
  · split <;> rfl
  · rfl

theorem pass_writeWith (l : Layout) (add : List Fragment → List Fragment) :
    (l.writeWith add).pass = l.pass := by
  unfold writeWith
  split
  · split <;> rfl
  · rfl

theorem pass_writeText (l : Layout) (text : Text) : (l.writeText text).pass = l.pass := by
  unfold writeText
  split
  · rfl
  · exact pass_writeWith l _

theorem Grounded.closeSection {l : Layout} (h : l.Grounded) : l.closeSection.Grounded := by
  unfold Layout.closeSection
  split
  · next top rest hs =>
    split
    · exact (h.tail hs).of_eq rfl rfl
    · exact h
  · exact h

theorem Grounded.openSection {l : Layout} (h : l.Grounded) (name : Text) :
    (l.openSection name).Grounded := by
  have pushed := h.closeSection.push name []
  rw [pass_closeSection] at pushed
  exact pushed.of_eq rfl rfl

theorem Grounded.writeWith {l : Layout} (h : l.Grounded) (add : List Fragment → List Fragment) :
    (l.writeWith add).Grounded := by
  unfold Layout.writeWith
  split
  · next top rest hs =>
    split
    · next hp =>
      have pushed := (h.tail hs).push top.name (add top.body)
      have same : ({ top with body := add top.body } : OpenSection) =
          ⟨top.name, l.pass, add top.body⟩ := by rw [← hp]
      rw [same]
      exact pushed
    · exact h.of_eq rfl rfl
  · exact h.of_eq rfl rfl

/-- Closing sections leaves those that are below. -/
theorem closeWhile_fst (pass layer : Nat) (sections : List OpenSection)
    (regions : NameMap Region) :
    (closeWhile pass layer sections regions).1 =
      sections.dropWhile fun top => decide (top.pass = pass) := by
  induction sections generalizing regions with
  | nil => rfl
  | cons top rest ih =>
    by_cases h : top.pass = pass
    · simp [closeWhile, h, ih]
    · simp [closeWhile, h]

theorem Grounded.endPass {l : Layout} (h : l.Grounded) : l.endPass.2.Grounded := by
  have sections : l.endPass.2.sections =
      l.sections.dropWhile fun top => decide (top.pass = l.pass) :=
    closeWhile_fst l.pass l.layer l.sections l.regions
  have suffix : l.endPass.2.sections <:+ l.sections := sections ▸ List.dropWhile_suffix _
  have pass : l.endPass.2.pass = l.pass - 1 := List.length_tail
  have ordered := h.ordered.sublist suffix.sublist
  refine ⟨fun top hm => ?_, ordered⟩
  rw [pass]
  -- The first section that is left belongs to a lower pass, and no other is above it.
  cases hd : l.endPass.2.sections with
  | nil => simp [hd] at hm
  | cons first rest =>
    have hne : first.pass ≠ l.pass := by
      have head := List.head?_dropWhile_not (fun top => decide (top.pass = l.pass)) l.sections
      rw [← sections, hd] at head
      simpa using head
    have hle := h.bounded first (suffix.subset (hd ▸ List.mem_cons_self ..))
    rw [hd] at hm ordered
    rcases List.mem_cons.mp hm with rfl | hm
    · omega
    · have := (List.pairwise_cons.mp ordered).1 top hm
      omega

theorem Reachable.grounded {l : Layout} (h : l.Reachable) : l.Grounded := by
  induction h with
  | initial => exact ⟨by simp [Layout.initial], by simp [Layout.initial]⟩
  | declareParent view _ ih => exact ih.of_eq rfl rfl
  | setParent parent _ ih => exact ih.of_eq rfl rfl
  | setLayer layer _ ih => exact ih.of_eq rfl rfl
  | openSection name _ ih => exact ih.openSection name
  | closeSection _ ih => exact ih.closeSection
  | writeText text _ ih =>
    unfold Layout.writeText
    split
    · exact ih
    · exact ih.writeWith _
  | writePlaceholder name _ ih => exact ih.writeWith _
  | beginPass _ ih =>
    exact ⟨fun top hm => Nat.le_succ_of_le (ih.bounded top hm), ih.ordered⟩
  | endPass _ ih => exact ih.endPass
  | enterScope _ ih => exact ih.of_eq rfl rfl
  | leaveScope scope _ ih => exact ih.of_eq rfl rfl
  | setImport name content _ ih => exact ih.of_eq rfl rfl
  | finish fragments _ ih => exact ih.of_eq rfl rfl

/-! ## On top of a caller -/

/-- A section whose pass is counted on from another. -/
def raise (count : Nat) (top : OpenSection) : OpenSection := { top with pass := top.pass + count }

/-- The layout `own` of a nested view, put on top of the layout `outer` of its caller, is `l` but for
the phase. -/
structure Above (outer own l : Layout) : Prop where
  parent : l.parent = own.parent
  layer : l.layer = own.layer
  regions : l.regions = own.regions
  imports : l.imports = own.imports
  /-- What the nested view wrote in each of its passes, and below it what was there before. -/
  outputs : ∃ written, own.output :: own.suspended = written ++ [[]] ∧
    l.output :: l.suspended = written ++ outer.output :: outer.suspended
  sections : l.sections = own.sections.map (raise outer.pass) ++ outer.sections

namespace Above

variable {outer own l : Layout}

theorem pass_eq (h : Above outer own l) : l.pass = own.pass + outer.pass := by
  obtain ⟨written, hw, hl⟩ := h.outputs
  have hw := congrArg List.length hw
  have hl := congrArg List.length hl
  simp only [List.length_cons, List.length_append, List.length_nil] at hw hl
  show l.suspended.length = own.suspended.length + outer.suspended.length
  omega

/-- Changes to the rest of a layout that are the same by itself and on top. -/
theorem of_eq {own' l' : Layout} (h : Above outer own l) (parent : l'.parent = own'.parent)
    (layer : l'.layer = own'.layer) (regions : l'.regions = own'.regions)
    (imports : l'.imports = own'.imports)
    (ownOutputs : own'.output :: own'.suspended = own.output :: own.suspended)
    (outputs : l'.output :: l'.suspended = l.output :: l.suspended)
    (ownSections : own'.sections = own.sections) (sections : l'.sections = l.sections) :
    Above outer own' l' := by
  refine ⟨parent, layer, regions, imports, ?_, ?_⟩
  · rw [ownOutputs, outputs]
    exact h.outputs
  · rw [ownSections, sections]
    exact h.sections

theorem setParent (h : Above outer own l) (parent : Option Text) :
    Above outer (own.setParent parent) (l.setParent parent) :=
  h.of_eq rfl h.layer h.regions h.imports rfl rfl rfl rfl

theorem declareParent (h : Above outer own l) (view : Text) :
    Above outer (own.declareParent view) (l.declareParent view) :=
  h.of_eq rfl h.layer h.regions h.imports rfl rfl rfl rfl

theorem setLayer (h : Above outer own l) (layer : Nat) :
    Above outer (own.setLayer layer) (l.setLayer layer) :=
  h.of_eq h.parent rfl h.regions h.imports rfl rfl rfl rfl

theorem setImport (h : Above outer own l) (name content : Text) :
    Above outer (own.setImport name content) (l.setImport name content) :=
  h.of_eq h.parent h.layer h.regions (congrArg (·.insert name content) h.imports) rfl rfl rfl rfl

theorem enterScope (h : Above outer own l) : Above outer own.enterScope.2 l.enterScope.2 :=
  h.of_eq h.parent rfl rfl h.imports rfl rfl rfl rfl

theorem leaveScope (h : Above outer own l) (scope : RegionScope) :
    Above outer (own.leaveScope scope) (l.leaveScope scope) :=
  h.of_eq h.parent rfl rfl h.imports rfl rfl rfl rfl

theorem beginPass (h : Above outer own l) : Above outer own.beginPass l.beginPass := by
  obtain ⟨written, hw, hl⟩ := h.outputs
  refine ⟨h.parent, h.layer, h.regions, h.imports, ⟨[] :: written, ?_, ?_⟩, h.sections⟩
  · exact congrArg ([] :: ·) hw
  · exact congrArg ([] :: ·) hl

/-- In a pass of the nested view both write to the same output. -/
theorem output_eq (h : Above outer own l) (hp : 0 < own.pass) : ∃ rest,
    l.output = own.output ∧ own.suspended = rest ++ [[]] ∧
      l.suspended = rest ++ outer.output :: outer.suspended := by
  obtain ⟨written, hw, hl⟩ := h.outputs
  cases written with
  | nil =>
    obtain ⟨-, hs⟩ := List.cons.inj hw
    simp [Layout.pass, hs] at hp
  | cons first rest =>
    obtain ⟨ho, hs⟩ := List.cons.inj hw
    obtain ⟨ho', hs'⟩ := List.cons.inj hl
    exact ⟨rest, ho'.trans ho.symm, hs, hs'⟩

/-- The section on top is one of the running pass either for both layouts or for none. -/
theorem top_cases (h : Above outer own l) (hg : outer.Grounded) (hp : 0 < own.pass) :
    (∃ top rest, own.sections = top :: rest ∧ top.pass = own.pass ∧
      l.sections = raise outer.pass top :: (rest.map (raise outer.pass) ++ outer.sections) ∧
      (raise outer.pass top).pass = l.pass) ∨
    ((∀ top rest, own.sections = top :: rest → top.pass ≠ own.pass) ∧
      ∀ top rest, l.sections = top :: rest → top.pass ≠ l.pass) := by
  have pass := h.pass_eq
  have sections := h.sections
  cases ho : own.sections with
  | nil =>
    refine Or.inr ⟨by simp, fun top rest hl => ?_⟩
    rw [sections, ho, List.map_nil, List.nil_append] at hl
    have := hg.bounded top (hl ▸ List.mem_cons_self ..)
    omega
  | cons top rest =>
    rw [ho, List.map_cons, List.cons_append] at sections
    have raised : (raise outer.pass top).pass = top.pass + outer.pass := rfl
    by_cases ht : top.pass = own.pass
    · exact Or.inl ⟨top, rest, rfl, ht, sections, by omega⟩
    · refine Or.inr ⟨?_, ?_⟩
      · rintro _ _ ⟨rfl, rfl⟩
        exact ht
      · intro first others hl
        obtain ⟨rfl, -⟩ := List.cons.inj (sections.symm.trans hl)
        omega

theorem writeWith (h : Above outer own l) (hg : outer.Grounded) (hp : 0 < own.pass)
    (add : List Fragment → List Fragment) :
    Above outer (own.writeWith add) (l.writeWith add) := by
  rcases h.top_cases hg hp with ⟨top, rest, ho, ht, hl, htl⟩ | ⟨ho, hl⟩
  · simp only [Layout.writeWith, ho, ht, hl, htl, ↓reduceIte]
    refine ⟨h.parent, h.layer, h.regions, h.imports, h.outputs, ?_⟩
    show ⟨top.name, l.pass, add top.body⟩ :: _ =
      raise outer.pass ⟨top.name, own.pass, add top.body⟩ :: _
    rw [h.pass_eq]
    rfl
  · have outside {m : Layout} (hm : ∀ top rest, m.sections = top :: rest → top.pass ≠ m.pass) :
        m.writeWith add = { m with output := add m.output } := by
      unfold Layout.writeWith
      split
      · next top rest hs => rw [if_neg (hm top rest hs)]
      · rfl
    obtain ⟨rest, output, hs, hs'⟩ := h.output_eq hp
    rw [outside ho, outside hl]
    refine ⟨h.parent, h.layer, h.regions, h.imports, ⟨add own.output :: rest, ?_, ?_⟩, h.sections⟩
    · simp only [hs, List.cons_append]
    · simp only [output, hs', List.cons_append]

theorem writeText (h : Above outer own l) (hg : outer.Grounded) (hp : 0 < own.pass) (text : Text) :
    Above outer (own.writeText text) (l.writeText text) := by
  unfold Layout.writeText
  split
  · exact h
  · exact h.writeWith hg hp _

theorem closeSection (h : Above outer own l) (hg : outer.Grounded) (hp : 0 < own.pass) :
    Above outer own.closeSection l.closeSection := by
  rcases h.top_cases hg hp with ⟨top, rest, ho, ht, hl, htl⟩ | ⟨ho, hl⟩
  · simp only [Layout.closeSection, ho, ht, hl, htl, ↓reduceIte]
    refine ⟨h.parent, h.layer, ?_, h.imports, h.outputs, rfl⟩
    -- A section settles by its name and its body.
    show settle l.layer top l.regions = settle own.layer top own.regions
    rw [h.layer, h.regions]
  · have outside {m : Layout} (hm : ∀ top rest, m.sections = top :: rest → top.pass ≠ m.pass) :
        m.closeSection = m := by
      unfold Layout.closeSection
      split
      · next top rest hs => rw [if_neg (hm top rest hs)]
      · rfl
    rw [outside ho, outside hl]
    exact h

theorem openSection (h : Above outer own l) (hg : outer.Grounded) (hp : 0 < own.pass)
    (name : Text) : Above outer (own.openSection name) (l.openSection name) := by
  have closed := h.closeSection hg hp
  refine ⟨closed.parent, closed.layer, closed.regions, closed.imports, closed.outputs, ?_⟩
  show ⟨name, l.pass, []⟩ :: l.closeSection.sections =
    raise outer.pass ⟨name, own.pass, []⟩ :: (own.closeSection.sections.map (raise outer.pass) ++
      outer.sections)
  rw [closed.sections, h.pass_eq]
  rfl

/-- The sections of the caller stay open when those of the nested view are closed. -/
theorem closeWhile_raise (hg : outer.Grounded) {pass : Nat} (hp : 0 < pass) (layer : Nat)
    (sections : List OpenSection) (regions : NameMap Region) :
    closeWhile (pass + outer.pass) layer (sections.map (raise outer.pass) ++ outer.sections)
        regions =
      ((closeWhile pass layer sections regions).1.map (raise outer.pass) ++ outer.sections,
        (closeWhile pass layer sections regions).2) := by
  induction sections generalizing regions with
  | nil =>
    cases ho : outer.sections with
    | nil => rfl
    | cons top rest =>
      have hle := hg.bounded top (ho ▸ List.mem_cons_self ..)
      have hne : top.pass ≠ pass + outer.pass := by omega
      simp [closeWhile, hne]
  | cons top rest ih =>
    have raised : (raise outer.pass top).pass = top.pass + outer.pass := rfl
    by_cases h : top.pass = pass
    · have h' : (raise outer.pass top).pass = pass + outer.pass := by omega
      simp only [List.map_cons, List.cons_append, closeWhile, h, h', ↓reduceIte]
      exact ih (settle layer top regions)
    · have h' : (raise outer.pass top).pass ≠ pass + outer.pass := by omega
      simp only [List.map_cons, List.cons_append, closeWhile, h, h', ↓reduceIte]

theorem endPass (h : Above outer own l) (hg : outer.Grounded) (hp : 0 < own.pass) :
    l.endPass.1 = own.endPass.1 ∧ Above outer own.endPass.2 l.endPass.2 := by
  obtain ⟨rest, output, hs, hs'⟩ := h.output_eq hp
  have closed := closeWhile_raise hg hp own.layer own.sections own.regions
  rw [← h.sections, ← h.pass_eq, ← h.layer] at closed
  have regions : l.endPass.2.regions = own.endPass.2.regions := by
    show (closeWhile l.pass l.layer l.sections l.regions).2 =
      (closeWhile own.pass own.layer own.sections own.regions).2
    rw [h.regions, closed, h.layer]
  have sections : l.endPass.2.sections =
      own.endPass.2.sections.map (raise outer.pass) ++ outer.sections := by
    show (closeWhile l.pass l.layer l.sections l.regions).1 =
      (closeWhile own.pass own.layer own.sections own.regions).1.map (raise outer.pass) ++ _
    rw [h.regions, closed, h.layer]
  refine ⟨output, h.parent, h.layer, regions, h.imports, ⟨rest, ?_, ?_⟩, sections⟩
  · show own.suspended.headD [] :: own.suspended.tail = _
    rw [hs]
    cases rest <;> rfl
  · show l.suspended.headD [] :: l.suspended.tail = _
    rw [hs']
    cases rest <;> rfl

end Above

end Stencil.Layout
