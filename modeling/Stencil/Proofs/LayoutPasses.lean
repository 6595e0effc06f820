import Stencil.Proofs.LayoutContents
import Stencil.Proofs.RegionOverride

/-!
# Passes keep to themselves

The number of a pass is not written down anywhere: it is the number of outputs that wait, and a
section belongs to the running pass when it has that number. What is written goes to the right place
only as long as the numbers of the open sections are in order. Proved here, for all layouts that
actions lead to (`Arises`), with passes and scopes that are nested, or have no start or no end:

* `Arises.stacked`: the open sections are of different passes, each of a higher one than those
  around it, and of none that is not running;
* `Arises.tidy`: no text is empty, and none follows another, in outputs, sections and regions;
* `passes_isolated`: what is done in a pass of its own, when all passes in it end, leaves the
  outputs and the open sections as they were.

While a pass runs over the outputs and the sections that were there before (`RunsOver`), it has one
more section open at most, and changes only that one.
-/

namespace Stencil

/-! ## Actions -/

inductive Action
  | operate (operation : Operation)
  | enterScope
  | leaveScope (scope : RegionScope)

namespace Action

def apply : Action → Layout → Layout
  | .operate operation, l => operation.apply l
  | .enterScope, l => l.enterScope.2
  | .leaveScope scope, l => l.leaveScope scope

def turnsPass : Action → Bool
  | .operate .beginPass | .operate .endPass => true
  | _ => false

end Action

/-- Every pass that starts ends, and no other one does. -/
inductive Balanced : List Action → Prop
  | nil : Balanced []
  | act {action rest} : action.turnsPass = false → Balanced rest → Balanced (action :: rest)
  | pass {inside rest} : Balanced inside → Balanced rest →
      Balanced (.operate .beginPass :: (inside ++ .operate .endPass :: rest))

namespace Layout

def actAll (l : Layout) (actions : List Action) : Layout :=
  actions.foldl (fun l action => action.apply l) l

/-- The layouts that actions lead to. What a scope brings back has been set aside from such a
layout. -/
inductive Arises : Layout → Prop
  | initial : Arises initial
  | operate {l} (operation : Operation) : Arises l → Arises (operation.apply l)
  | enterScope {l} : Arises l → Arises l.enterScope.2
  | leaveScope {l other} : Arises l → Arises other → Arises (l.leaveScope other.enterScope.1)

/-! ## One pass -/

/-- The open sections are of different passes, each of a higher one than those around it, and of
none that is not running. -/
structure Stacked (l : Layout) : Prop where
  ordered : l.sections.Pairwise fun inner outer => outer.pass < inner.pass
  bounded : ∀ top ∈ l.sections, top.pass ≤ l.suspended.length

/-- A pass runs over outputs that wait and sections that are open: it has one more section at most.
-/
structure RunsOver (outputs : List (List Fragment)) (outer : List OpenSection) (l : Layout) :
    Prop where
  suspended : l.suspended = outputs
  sections : ∃ current : Option (Text × List Fragment),
    l.sections = current.toList.map (inPass l.pass) ++ outer
  below : ∀ top ∈ outer, top.pass < outputs.length

theorem suspended_writeWith (l : Layout) (add : List Fragment → List Fragment) :
    (l.writeWith add).suspended = l.suspended := by
  unfold writeWith
  split
  · split <;> rfl
  · rfl

namespace RunsOver

variable {outputs : List (List Fragment)} {outer : List OpenSection} {l : Layout}
  (h : l.RunsOver outputs outer)

include h

theorem below_pass : ∀ top ∈ outer, top.pass < l.pass := by
  intro top ht
  rw [pass, h.suspended]
  exact h.below top ht

theorem of_eq {m : Layout} (suspended : m.suspended = l.suspended)
    (sections : m.sections = l.sections) : m.RunsOver outputs outer := by
  have pass : m.pass = l.pass := congrArg List.length suspended
  exact ⟨suspended.trans h.suspended, by rw [sections, pass]; exact h.sections, h.below⟩

theorem closeSection_eq_outer :
    ∃ regions, l.closeSection = { l with sections := outer, regions } := by
  obtain ⟨current, sections⟩ := h.sections
  exact ⟨_, closeSection_eq sections h.below_pass⟩

theorem closeSection : l.closeSection.RunsOver outputs outer := by
  obtain ⟨regions, closed⟩ := h.closeSection_eq_outer
  rw [closed]
  exact ⟨h.suspended, ⟨none, rfl⟩, h.below⟩

theorem openSection (name : Text) : (l.openSection name).RunsOver outputs outer := by
  obtain ⟨regions, closed⟩ := h.closeSection_eq_outer
  unfold Layout.openSection
  rw [closed]
  exact ⟨h.suspended, ⟨some (name, []), rfl⟩, h.below⟩

theorem writeWith (add : List Fragment → List Fragment) :
    (l.writeWith add).RunsOver outputs outer := by
  obtain ⟨current, sections⟩ := h.sections
  have written := sections_writeWith sections h.below_pass add
  rw [← pass_writeWith l add] at written
  exact ⟨(suspended_writeWith l add).trans h.suspended, ⟨_, written⟩, h.below⟩

/-- What does not start or end a pass stays in it. -/
theorem apply {action : Action} (stays : action.turnsPass = false) :
    (action.apply l).RunsOver outputs outer := by
  cases action with
  | enterScope => exact h.of_eq rfl rfl
  | leaveScope scope => exact h.of_eq rfl rfl
  | operate operation =>
    cases operation with
    | openSection name => exact h.openSection name
    | closeSection => exact h.closeSection
    | writeText text =>
      show (l.writeText text).RunsOver outputs outer
      rw [writeText_eq_writeWith]
      exact h.writeWith _
    | writePlaceholder name => exact h.writeWith (· ++ [.placeholder name])
    | beginPass => simp [Action.turnsPass] at stays
    | endPass => simp [Action.turnsPass] at stays
    | _ => exact h.of_eq rfl rfl

/-- At the end of a pass, what it ran over is there again. -/
theorem endPass : l.endPass.2.output = outputs.headD [] ∧ l.endPass.2.suspended = outputs.tail ∧
    l.endPass.2.sections = outer := by
  obtain ⟨current, sections⟩ := h.sections
  have closed := closeWhile_eq sections h.below_pass l.layer l.regions
  refine ⟨?_, ?_, congrArg Prod.fst closed⟩
  · show l.suspended.headD [] = _
    rw [h.suspended]
  · show l.suspended.tail = _
    rw [h.suspended]

theorem bounded : ∀ top ∈ l.sections, top.pass ≤ l.suspended.length := by
  obtain ⟨current, sections⟩ := h.sections
  intro top ht
  rw [sections, List.mem_append] at ht
  rcases ht with own | around
  · obtain ⟨_, -, rfl⟩ := List.mem_map.mp own
    exact Nat.le_refl l.pass
  · exact Nat.le_of_lt (h.below_pass top around)

theorem stacked (ordered : outer.Pairwise fun inner outer => outer.pass < inner.pass) :
    l.Stacked := by
  refine ⟨?_, h.bounded⟩
  obtain ⟨current, sections⟩ := h.sections
  rw [sections]
  cases current with
  | none => exact ordered
  | some top => exact List.pairwise_cons.mpr ⟨h.below_pass, ordered⟩

end RunsOver

section Stacked

variable {l : Layout}

/-- A new pass runs over all that is there. -/
theorem runsOver_beginPass (bounded : ∀ top ∈ l.sections, top.pass ≤ l.suspended.length) :
    l.beginPass.RunsOver (l.output :: l.suspended) l.sections :=
  ⟨rfl, ⟨none, rfl⟩, fun top ht => Nat.lt_succ_of_le (bounded top ht)⟩

/-- The running pass runs over all sections but its own. -/
theorem Stacked.runsOver (h : l.Stacked) : ∃ outer, l.RunsOver l.suspended outer ∧
    outer.Pairwise fun inner outer => outer.pass < inner.pass := by
  obtain ⟨ordered, bounded⟩ := h
  cases hs : l.sections with
  | nil => exact ⟨[], ⟨rfl, ⟨none, hs⟩, by simp⟩, .nil⟩
  | cons top rest =>
    rw [hs] at ordered bounded
    obtain ⟨below, ordered'⟩ := List.pairwise_cons.mp ordered
    have top_le : top.pass ≤ l.suspended.length := bounded top List.mem_cons_self
    by_cases own : top.pass = l.suspended.length
    · refine ⟨rest, ⟨rfl, ⟨some (top.name, top.body), ?_⟩, fun other ho => own ▸ below other ho⟩,
        ordered'⟩
      rw [hs]
      have same : inPass l.pass (top.name, top.body) = top := by rw [inPass, pass, ← own]
      simp [same]
    · have top_lt : top.pass < l.suspended.length := by omega
      refine ⟨top :: rest, ⟨rfl, ⟨none, hs⟩, ?_⟩, ordered⟩
      exact List.forall_mem_cons.mpr ⟨top_lt, fun other ho => (below other ho).trans top_lt⟩

theorem Stacked.apply (h : l.Stacked) (action : Action) : (action.apply l).Stacked := by
  obtain ⟨outer, runs, ordered⟩ := h.runsOver
  cases turns : action.turnsPass with
  | false => exact (runs.apply turns).stacked ordered
  | true =>
    cases action with
    | enterScope => simp [Action.turnsPass] at turns
    | leaveScope scope => simp [Action.turnsPass] at turns
    | operate operation =>
      cases operation with
      | beginPass => exact (runsOver_beginPass h.bounded).stacked h.ordered
      | endPass =>
        obtain ⟨-, suspended, sections⟩ := runs.endPass
        constructor
        · show l.endPass.2.sections.Pairwise _
          rwa [sections]
        · show ∀ top ∈ l.endPass.2.sections, top.pass ≤ l.endPass.2.suspended.length
          rw [sections, suspended, List.length_tail]
          exact fun top ht => Nat.le_sub_one_of_lt (runs.below top ht)
      | _ => simp [Action.turnsPass] at turns

end Stacked

/-! ## Layouts that arise -/

theorem Arises.stacked {l : Layout} (h : l.Arises) : l.Stacked := by
  induction h with
  | initial => exact ⟨.nil, by simp [Layout.initial]⟩
  | operate operation _ ih => exact ih.apply (.operate operation)
  | enterScope _ ih => exact ih.apply .enterScope
  | leaveScope _ _ ih _ => exact ih.apply (.leaveScope _)

theorem Holds.tidy_apply {l : Layout} (h : l.Holds Tidy) (operation : Operation) :
    (operation.apply l).Holds Tidy := by
  cases operation with
  | openSection name => exact h.openSection tidy_nil name
  | closeSection => exact h.closeSection
  | writeText text =>
    show (l.writeText text).Holds Tidy
    rw [writeText_eq_writeWith]
    exact h.writeWith fun _ tidy => tidy.pushText text
  | writePlaceholder name => exact h.writeWith fun _ tidy => tidy.placeholder name
  | beginPass => exact h.beginPass tidy_nil
  | endPass => exact (h.endPass tidy_nil).2
  | _ => exact h.of_eq rfl rfl rfl rfl

theorem Arises.tidy {l : Layout} (h : l.Arises) : l.Holds Tidy := by
  induction h with
  | initial => exact holds_initial tidy_nil
  | operate operation _ ih => exact ih.tidy_apply operation
  | enterScope _ ih => exact ih.enterScope
  | leaveScope _ _ ih other => exact other.leaveScope ih

theorem Arises.runAll {l : Layout} (h : l.Arises) (operations : List Operation) :
    (l.runAll operations).Arises := by
  induction operations generalizing l with
  | nil => exact h
  | cons operation rest ih => exact ih (h.operate operation)

/-! ## Passes inside one another -/

theorem actAll_append (l : Layout) (first rest : List Action) :
    l.actAll (first ++ rest) = (l.actAll first).actAll rest := List.foldl_append

/-- The passes in a pass are over with it. -/
theorem RunsOver.actAll {actions : List Action} (balanced : Balanced actions)
    {outputs : List (List Fragment)} {outer : List OpenSection} {l : Layout}
    (h : l.RunsOver outputs outer) : (l.actAll actions).RunsOver outputs outer := by
  induction balanced generalizing l outputs outer with
  | nil => exact h
  | act stays _ ih => exact ih (h.apply stays)
  | @pass inside rest _ _ ihInside ihRest =>
    -- The inner pass runs over all that is there by now, and all of it is there again at its end.
    have ran := ihInside (runsOver_beginPass h.bounded)
    obtain ⟨-, suspended, sections⟩ := ran.endPass
    have ended : (l.beginPass.actAll inside).endPass.2.RunsOver outputs outer :=
      h.of_eq suspended sections
    show (l.beginPass.actAll (inside ++ .operate .endPass :: rest)).RunsOver outputs outer
    rw [actAll_append]
    exact ihRest ended

/-- In every layout that actions lead to, the passes of the open sections rise from the outermost to
the innermost and are no more than the outputs that wait, and no text is empty or follows another.
What is done there in a pass of its own, when all passes in it end, leaves the outputs and the open
sections as they were. -/
theorem passes_isolated {l : Layout} (h : l.Arises) :
    l.Stacked ∧ l.Holds Tidy ∧ ∀ actions, Balanced actions →
      (l.beginPass.actAll actions).endPass.2.output = l.output ∧
      (l.beginPass.actAll actions).endPass.2.suspended = l.suspended ∧
      (l.beginPass.actAll actions).endPass.2.sections = l.sections := by
  refine ⟨h.stacked, h.tidy, fun actions balanced => ?_⟩
  have started : l.beginPass.RunsOver (l.output :: l.suspended) l.sections :=
    runsOver_beginPass h.stacked.bounded
  exact (started.actAll balanced).endPass

/-! A page has filled a region, written, opened a section and written to it, when a nested view
writes to sections of its own. -/

section Example

def pageOperations : List Operation :=
  [.writeText "w".toList, .beginPass, .openSection "title".toList, .writeText "t".toList,
    .closeSection, .writeText "a".toList, .writeText "b".toList, .openSection "body".toList,
    .writeText "c".toList, .writePlaceholder "title".toList, .writeText "d".toList]

def pageInside : Layout := Layout.initial.runAll pageOperations

/-- The nested view has one pass in another and leaves its sections open. -/
def nestedActions : List Action :=
  [.enterScope, .operate (.openSection "head".toList), .operate (.writeText "x".toList),
    .operate .beginPass, .operate (.openSection "foot".toList), .operate (.writeText "y".toList),
    .operate .endPass, .operate (.writeText "z".toList), .leaveScope pageInside.enterScope.1]

theorem balanced_nestedActions : Balanced nestedActions :=
  have foot : Balanced [.operate (.openSection "foot".toList), .operate (.writeText "y".toList)] :=
    .act rfl (.act rfl .nil)
  .act rfl (.act rfl (.act rfl (.pass foot (.act rfl (.act rfl .nil)))))

theorem passes_isolated_page :
    pageInside.output = [.text "ab".toList] ∧ pageInside.suspended = [[.text "w".toList]] ∧
      pageInside.sections = [⟨"body".toList, 1,
        [.text "c".toList, .placeholder "title".toList, .text "d".toList]⟩] ∧
      pageInside.Stacked ∧ pageInside.Holds Tidy ∧
      (pageInside.beginPass.actAll nestedActions).endPass.2.output = pageInside.output ∧
      (pageInside.beginPass.actAll nestedActions).endPass.2.suspended = pageInside.suspended ∧
      (pageInside.beginPass.actAll nestedActions).endPass.2.sections = pageInside.sections := by
  have arises : pageInside.Arises := Arises.initial.runAll pageOperations
  obtain ⟨stacked, tidy, isolated⟩ := passes_isolated arises
  exact ⟨by decide, by decide, by decide, stacked, tidy, isolated _ balanced_nestedActions⟩

end Example

end Layout

end Stencil
