import Stencil.Proofs.CallerLayout
import Stencil.Proofs.LayoutChain

/-!
# Which section fills a region

Sections are closed by a stop, by the next section of their pass or by the end of their pass, on layers
that go up and down, and a region keeps one of them. What it keeps is said here by looking back over
the operations alone: `openAfter` finds the section that is open in a pass, with its body, and
`closings` lists the sections that have been closed, each with the layer at that time.

Proved here, for every run of operations, with passes that are nested or have no start or no end:
`regions_fills_iff`, a region is filled exactly when a section of its name has been closed, and by the
last one of those that were closed on the lowest layer.

The layout keeps the sections that looking back finds (`Recalls`), and every operation settles just
those that it closes (`filledBy_runAll`).
-/

namespace Stencil

/-- What is done to a layout as long as no nested view is entered or left. -/
inductive Operation
  | declareParent (view : Text)
  | setParent (parent : Option Text)
  | setLayer (layer : Nat)
  | openSection (name : Text)
  | closeSection
  | writeText (text : Text)
  | writePlaceholder (name : Text)
  | beginPass
  | endPass
  | setImport (name content : Text)
  | finish (fragments : List Fragment)
  deriving DecidableEq, Repr

def Operation.apply : Operation → Layout → Layout
  | .declareParent view, l => l.declareParent view
  | .setParent parent, l => l.setParent parent
  | .setLayer layer, l => l.setLayer layer
  | .openSection name, l => l.openSection name
  | .closeSection, l => l.closeSection
  | .writeText text, l => l.writeText text
  | .writePlaceholder name, l => l.writePlaceholder name
  | .beginPass, l => l.beginPass
  | .endPass, l => l.endPass.2
  | .setImport name content, l => l.setImport name content
  | .finish fragments, l => (l.finish fragments).2

def Layout.runAll (l : Layout) (operations : List Operation) : Layout :=
  operations.foldl (fun l operation => operation.apply l) l

/-! ## Looking back -/

def layerAfter : List Operation → Nat
  | [] => 0
  | .setLayer layer :: _ => layer
  | _ :: past => layerAfter past

/-- The section that is open after some operations, the last of them first, and what has been written
to it. It is looked for in the pass that is `outward` passes around the running one: looking back, the
end of a pass leads into it, and its start out of it again. -/
def openAfter : Nat → List Operation → Option (Text × List Fragment)
  | _, [] => none
  | 0, .openSection name :: _ => some (name, [])
  | 0, .closeSection :: _ => none
  | 0, .beginPass :: _ => none
  | 0, .writeText text :: past =>
    (openAfter 0 past).map fun (name, body) => (name, Fragment.pushText text body)
  | 0, .writePlaceholder region :: past =>
    (openAfter 0 past).map fun (name, body) => (name, body ++ [.placeholder region])
  | outward + 1, .beginPass :: past => openAfter outward past
  | outward, .endPass :: past => openAfter (outward + 1) past
  | outward, _ :: past => openAfter outward past

/-- A section that has been closed, and the layer at that time. -/
structure Closing where
  layer : Nat
  name : Text
  body : List Fragment
  deriving DecidableEq, Repr

/-- The section of the running pass that an operation closes after others. -/
def endedBy (past : List Operation) : Operation → List Closing
  | .openSection _ | .closeSection | .endPass =>
    (openAfter 0 past).toList.map fun (name, body) => ⟨layerAfter past, name, body⟩
  | _ => []

/-- The sections that operations close after others, in order. -/
def closings (past : List Operation) : List Operation → List Closing
  | [] => []
  | operation :: rest => endedBy past operation ++ closings (operation :: past) rest

/-- Of the closed sections of a name, the region is the last one on the lowest layer. -/
def Fills (closed : List Closing) (name : Text) (region : Region) : Prop :=
  ∃ before after, closed = before ++ ⟨region.layer, name, region.body⟩ :: after ∧
    (∀ other ∈ before, other.name = name → region.layer ≤ other.layer) ∧
    ∀ other ∈ after, other.name = name → region.layer < other.layer

/-! ## Closing sections one by one -/

section Fills

variable {closed : List Closing} {name : Text} {region : Region}

/-- No section of the name has been closed on a lower layer. -/
theorem Fills.layer_le (h : Fills closed name region) {other : Closing} (ho : other ∈ closed)
    (hn : other.name = name) : region.layer ≤ other.layer := by
  obtain ⟨before, after, rfl, lowest, last⟩ := h
  rcases List.mem_append.mp ho with ho | ho
  · exact lowest other ho hn
  · rcases List.mem_cons.mp ho with rfl | ho
    · exact Nat.le_refl _
    · exact Nat.le_of_lt (last other ho hn)

/-- Of two sections on one layer the earlier one is not the last. -/
theorem body_eq_of_last {layer : Nat} {body body' : List Fragment} {after after' between : List Closing}
    (same : (⟨layer, name, body⟩ : Closing) :: after = between ++ ⟨layer, name, body'⟩ :: after')
    (last : ∀ other ∈ after, other.name = name → layer < other.layer) : body = body' := by
  cases between with
  | nil => exact (Closing.mk.inj (List.cons.inj same).1).2.2
  | cons first between =>
    obtain ⟨-, rfl⟩ := List.cons.inj same
    exact absurd (last _ (List.mem_append_right _ (List.mem_cons_self ..)) rfl) (Nat.lt_irrefl _)

theorem Fills.mem (h : Fills closed name region) : ⟨region.layer, name, region.body⟩ ∈ closed := by
  obtain ⟨before, after, rfl, -⟩ := h
  exact List.mem_append_right before (List.mem_cons_self ..)

theorem Fills.unique {other : Region} (h : Fills closed name region)
    (ho : Fills closed name other) : region = other := by
  have layers : region.layer = other.layer :=
    Nat.le_antisymm (h.layer_le ho.mem rfl) (ho.layer_le h.mem rfl)
  obtain ⟨before, after, rfl, -, last⟩ := h
  obtain ⟨before', after', same, -, last'⟩ := ho
  obtain ⟨layer, body⟩ := region
  obtain ⟨layer', body'⟩ := other
  obtain rfl : layer = layer' := layers
  rcases List.append_eq_append_iff.mp same with ⟨between, -, tail⟩ | ⟨between, -, tail⟩
  · exact congrArg (Region.mk layer) (body_eq_of_last tail last)
  · exact congrArg (Region.mk layer) (body_eq_of_last tail last').symm

/-- A section of another name, or on a higher layer, leaves the region as it is. -/
theorem Fills.keep (h : Fills closed name region) {next : Closing}
    (hn : next.name = name → region.layer < next.layer) : Fills (closed ++ [next]) name region := by
  obtain ⟨before, after, rfl, lowest, last⟩ := h
  refine ⟨before, after ++ [next], by simp, lowest, fun other ho => ?_⟩
  rcases List.mem_append.mp ho with ho | ho
  · exact last other ho
  · obtain rfl := List.mem_singleton.mp ho
    exact hn

/-- A section that none of its name is below fills the region anew. -/
theorem fills_concat {layer : Nat} {body : List Fragment}
    (lowest : ∀ other ∈ closed, other.name = name → layer ≤ other.layer) :
    Fills (closed ++ [⟨layer, name, body⟩]) name ⟨layer, body⟩ :=
  ⟨closed, [], rfl, lowest, by simp⟩

end Fills

/-- The regions are those that the closed sections fill. -/
def FilledBy (closed : List Closing) (regions : NameMap Region) : Prop :=
  ∀ name, match regions.find? name with
    | some region => Fills closed name region
    | none => ∀ c ∈ closed, c.name ≠ name

theorem FilledBy.settle {closed : List Closing} {regions : NameMap Region}
    (h : FilledBy closed regions) (layer : Nat) (top : Text × List Fragment) :
    FilledBy (closed ++ [⟨layer, top.1, top.2⟩])
      (Layout.settle layer ⟨top.1, 0, top.2⟩ regions) := by
  intro name
  rw [settle_find?]
  have before := h name
  cases hf : regions.find? name with
  | none =>
    simp only [hf] at before
    by_cases hn : top.1 = name
    · subst hn
      simpa [replaces] using fills_concat fun other ho hn => absurd hn (before other ho)
    · simp only [hn, false_and, ↓reduceIte]
      intro other ho
      rcases List.mem_append.mp ho with ho | ho
      · exact before other ho
      · obtain rfl := List.mem_singleton.mp ho
        exact hn
  | some region =>
    simp only [hf] at before
    by_cases hn : top.1 = name
    · subst hn
      by_cases hl : layer ≤ region.layer
      · simpa [replaces, hl] using
          fills_concat fun other ho hn => Nat.le_trans hl (before.layer_le ho hn)
      · simpa [replaces, hl] using before.keep fun _ => Nat.lt_of_not_le hl
    · simpa [hn] using before.keep fun same => absurd same hn

theorem FilledBy.settleAll {closed : List Closing} {regions : NameMap Region}
    (h : FilledBy closed regions) (layer : Nat) (tops : List (Text × List Fragment)) :
    FilledBy (closed ++ tops.map fun (name, body) => ⟨layer, name, body⟩)
      (Layout.settleAll layer tops regions) := by
  induction tops generalizing closed regions with
  | nil => simpa [Layout.settleAll] using h
  | cons top tops ih =>
    have rest := ih (h.settle layer top)
    rw [List.append_assoc] at rest
    exact rest

/-! ## The open sections -/

namespace Layout

def inPass (pass : Nat) (top : Text × List Fragment) : OpenSection := ⟨top.1, pass, top.2⟩

/-- The sections that are open around a pass, the innermost first, when `open?` gives the one that is
open so many passes around it. -/
def around (open? : Nat → Option (Text × List Fragment)) : Nat → List OpenSection
  | 0 => []
  | pass + 1 =>
    (open? 1).toList.map (inPass pass) ++ around (fun outward => open? (outward + 1)) pass

theorem around_congr {open? other? : Nat → Option (Text × List Fragment)}
    (h : ∀ outward, open? (outward + 1) = other? (outward + 1)) (pass : Nat) :
    around open? pass = around other? pass := by
  cases pass with
  | zero => rfl
  | succ pass =>
    have same : (fun outward => open? (outward + 1)) = fun outward => other? (outward + 1) :=
      funext h
    simp only [around, same, h 0]

theorem pass_lt_of_mem_around {open? : Nat → Option (Text × List Fragment)} {pass : Nat}
    {top : OpenSection} (h : top ∈ around open? pass) : top.pass < pass := by
  induction pass generalizing open? with
  | zero => simp [around] at h
  | succ pass ih =>
    rcases List.mem_append.mp h with h | h
    · obtain ⟨_, -, rfl⟩ := List.mem_map.mp h
      exact Nat.lt_succ_self pass
    · exact Nat.lt_succ_of_lt (ih h)

section Sections

variable {l : Layout} {current : Option (Text × List Fragment)} {outer : List OpenSection}
  (hs : l.sections = current.toList.map (inPass l.pass) ++ outer)
  (ho : ∀ top ∈ outer, top.pass < l.pass)

include hs ho

theorem closeSection_eq :
    l.closeSection =
      { l with sections := outer, regions := settleAll l.layer current.toList l.regions } := by
  cases current with
  | some top =>
    simp only [Option.toList_some, List.map_cons, List.map_nil, List.singleton_append] at hs
    simp only [closeSection, hs, inPass, ↓reduceIte]
    rfl
  | none =>
    obtain rfl : l.sections = outer := by simpa using hs
    unfold closeSection
    split
    · next top rest hl =>
      rw [if_neg (Nat.ne_of_lt (ho top (hl ▸ List.mem_cons_self ..)))]
      rfl
    · rfl

theorem closeWhile_eq (layer : Nat) (regions : NameMap Region) :
    closeWhile l.pass layer l.sections regions =
      (outer, settleAll layer current.toList regions) := by
  have stops (regions : NameMap Region) :
      closeWhile l.pass layer outer regions = (outer, regions) := by
    cases outer with
    | nil => rfl
    | cons top rest =>
      have ne : top.pass ≠ l.pass := Nat.ne_of_lt (ho top (List.mem_cons_self ..))
      simp [closeWhile, ne]
  rw [hs]
  cases current with
  | none => exact stops regions
  | some top => simpa [closeWhile, inPass, settleAll, settle] using stops _

theorem sections_writeWith (add : List Fragment → List Fragment) :
    (l.writeWith add).sections =
      (current.map fun (name, body) => (name, add body)).toList.map (inPass l.pass) ++ outer := by
  cases current with
  | some top =>
    simp only [Option.toList_some, List.map_cons, List.map_nil, List.singleton_append] at hs
    simp [writeWith, hs, inPass]
  | none =>
    simp only [Option.toList_none, List.map_nil, List.nil_append] at hs
    cases outer with
    | nil => simp [writeWith, hs]
    | cons top rest =>
      have ne : top.pass ≠ l.pass := Nat.ne_of_lt (ho top (List.mem_cons_self ..))
      simp [writeWith, hs, ne]

end Sections

/-- The layout has the layer and the open sections that looking back over the operations finds. -/
structure Recalls (l : Layout) (past : List Operation) : Prop where
  layer : l.layer = layerAfter past
  sections : l.sections = (openAfter 0 past).toList.map (inPass l.pass) ++
    around (openAfter · past) l.pass
  /-- There is no pass outside the outermost one. -/
  outside : ∀ outward, l.pass < outward → openAfter outward past = none

theorem recalls_initial : Layout.initial.Recalls [] :=
  ⟨rfl, rfl, fun _ _ => by simp [openAfter]⟩

theorem layer_closeSection (l : Layout) : l.closeSection.layer = l.layer := by
  unfold closeSection
  split
  · split <;> rfl
  · rfl

theorem layer_writeWith (l : Layout) (add : List Fragment → List Fragment) :
    (l.writeWith add).layer = l.layer := by
  unfold writeWith
  split
  · split <;> rfl
  · rfl

theorem regions_writeWith (l : Layout) (add : List Fragment → List Fragment) :
    (l.writeWith add).regions = l.regions := by
  unfold writeWith
  split
  · split <;> rfl
  · rfl

namespace Recalls

variable {past : List Operation} {l m : Layout} (h : l.Recalls past)

include h

/-- An operation of the running pass leaves the sections of the passes around it. -/
theorem inside {operation : Operation} (layer : m.layer = layerAfter (operation :: past))
    (pass : m.pass = l.pass)
    (sections : m.sections = (openAfter 0 (operation :: past)).toList.map (inPass l.pass) ++
      around (openAfter · past) l.pass)
    (outward : ∀ outward,
      openAfter (outward + 1) (operation :: past) = openAfter (outward + 1) past) :
    m.Recalls (operation :: past) := by
  have same : around (openAfter · past) l.pass =
      around (openAfter · (operation :: past)) l.pass :=
    around_congr (fun count => (outward count).symm) l.pass
  refine ⟨layer, ?_, fun count hc => ?_⟩
  · rw [sections, pass, same]
  · cases count with
    | zero => simp at hc
    | succ count => rw [outward, h.outside _ (pass ▸ hc)]

theorem writeWith {operation : Operation} {add : List Fragment → List Fragment}
    (layer : layerAfter (operation :: past) = layerAfter past)
    (here : openAfter 0 (operation :: past) =
      (openAfter 0 past).map fun (name, body) => (name, add body))
    (outward : ∀ outward,
      openAfter (outward + 1) (operation :: past) = openAfter (outward + 1) past) :
    (l.writeWith add).Recalls (operation :: past) := by
  refine h.inside ?_ (pass_writeWith l add) ?_ outward
  · rw [layer_writeWith, h.layer, layer]
  · rw [here]
    exact sections_writeWith h.sections (fun _ => pass_lt_of_mem_around) add

theorem closeSection : l.closeSection.Recalls (.closeSection :: past) := by
  refine h.inside ?_ (pass_closeSection l) ?_ fun _ => rfl
  · rw [layer_closeSection, h.layer]
    rfl
  · rw [closeSection_eq h.sections fun _ => pass_lt_of_mem_around]
    rfl

theorem openSection (name : Text) : (l.openSection name).Recalls (.openSection name :: past) := by
  refine h.inside ?_ (pass_closeSection l) ?_ fun _ => rfl
  · exact (layer_closeSection l).trans h.layer
  · show inPass l.pass (name, []) :: l.closeSection.sections = _
    rw [closeSection_eq h.sections fun _ => pass_lt_of_mem_around]
    rfl

theorem beginPass : l.beginPass.Recalls (.beginPass :: past) := by
  refine ⟨h.layer, h.sections, fun count hc => ?_⟩
  cases count with
  | zero => rfl
  | succ count => exact h.outside count (Nat.lt_of_succ_lt_succ hc)

theorem endPass : l.endPass.2.Recalls (.endPass :: past) := by
  have closed := closeWhile_eq h.sections (fun _ => pass_lt_of_mem_around) l.layer l.regions
  have sections : l.endPass.2.sections = around (openAfter · past) l.pass :=
    congrArg Prod.fst closed
  have pass : l.endPass.2.pass = l.pass - 1 := List.length_tail
  refine ⟨h.layer, ?_, fun count hc => h.outside (count + 1) (by omega)⟩
  rw [sections, pass]
  cases hp : l.pass with
  | zero =>
    -- There is no pass to go back to, and no section outside.
    have none : openAfter 0 (.endPass :: past) = .none := h.outside 1 (by omega)
    rw [none]
    rfl
  | succ pass => rfl

/-- The layout keeps what looking back finds. -/
theorem apply (operation : Operation) : (operation.apply l).Recalls (operation :: past) := by
  cases operation with
  | declareParent view => exact h.inside h.layer rfl h.sections fun _ => rfl
  | setParent parent => exact h.inside h.layer rfl h.sections fun _ => rfl
  | setLayer layer => exact h.inside rfl rfl h.sections fun _ => rfl
  | openSection name => exact h.openSection name
  | closeSection => exact h.closeSection
  | writeText text =>
    show (l.writeText text).Recalls (.writeText text :: past)
    rw [writeText_eq_writeWith]
    exact h.writeWith rfl rfl fun _ => rfl
  | writePlaceholder name =>
    show (l.writeWith (· ++ [.placeholder name])).Recalls (.writePlaceholder name :: past)
    exact h.writeWith rfl rfl fun _ => rfl
  | beginPass => exact h.beginPass
  | endPass => exact h.endPass
  | setImport name content => exact h.inside h.layer rfl h.sections fun _ => rfl
  | finish fragments => exact h.inside h.layer rfl h.sections fun _ => rfl

/-- An operation settles the section that looking back finds it to close. -/
theorem filledBy {closed : List Closing} (hf : FilledBy closed l.regions) (operation : Operation) :
    FilledBy (closed ++ endedBy past operation) (operation.apply l).regions := by
  have settled := hf.settleAll l.layer (openAfter 0 past).toList
  have shut : l.closeSection.regions = settleAll l.layer (openAfter 0 past).toList l.regions := by
    rw [closeSection_eq h.sections fun _ => pass_lt_of_mem_around]
  have ended : l.endPass.2.regions = settleAll l.layer (openAfter 0 past).toList l.regions :=
    congrArg Prod.snd
      (closeWhile_eq h.sections (fun _ => pass_lt_of_mem_around) l.layer l.regions)
  have kept : FilledBy (closed ++ []) l.regions := by rwa [List.append_nil]
  rw [h.layer] at settled shut ended
  cases operation with
  | openSection name =>
    show FilledBy _ l.closeSection.regions
    exact shut ▸ settled
  | closeSection =>
    show FilledBy _ l.closeSection.regions
    exact shut ▸ settled
  | endPass =>
    show FilledBy _ l.endPass.2.regions
    exact ended ▸ settled
  | writeText text =>
    show FilledBy _ (l.writeText text).regions
    rwa [writeText_eq_writeWith, regions_writeWith]
  | writePlaceholder name =>
    show FilledBy _ (l.writeWith (· ++ [.placeholder name])).regions
    rwa [regions_writeWith]
  | _ => exact kept

/-- The sections that a run closes fill the regions that it leaves. -/
theorem filledBy_runAll {closed : List Closing} (hf : FilledBy closed l.regions)
    (operations : List Operation) :
    FilledBy (closed ++ closings past operations) (l.runAll operations).regions := by
  induction operations generalizing past l closed with
  | nil => simpa [closings, runAll] using hf
  | cons operation rest ih =>
    have next := ih (h.apply operation) (h.filledBy hf operation)
    rw [List.append_assoc] at next
    exact next

end Recalls

/-- A region is filled exactly when a section of its name has been closed, and then by the last one of
those that were closed on the lowest layer; it keeps that layer. -/
theorem regions_fills_iff (operations : List Operation) (name : Text) :
    ((Layout.initial.runAll operations).regions.find? name ≠ none ↔
      ∃ c ∈ closings [] operations, c.name = name) ∧
    ∀ region, (Layout.initial.runAll operations).regions.find? name = some region ↔
      Fills (closings [] operations) name region := by
  have filled : FilledBy ([] ++ closings [] operations)
      (Layout.initial.runAll operations).regions :=
    recalls_initial.filledBy_runAll (by simp [FilledBy, Layout.initial]) operations
  have found := filled name
  rw [List.nil_append] at found
  cases hr : (Layout.initial.runAll operations).regions.find? name with
  | none =>
    simp only [hr] at found
    refine ⟨⟨fun h => absurd rfl h, ?_⟩, fun region => ⟨fun h => by simp at h, ?_⟩⟩
    · rintro ⟨c, hc, hn⟩
      exact absurd hn (found c hc)
    · intro h
      exact absurd rfl (found _ h.mem)
  | some region =>
    simp only [hr] at found
    refine ⟨⟨fun _ => ⟨_, found.mem, rfl⟩, fun _ => by simp⟩, fun other => ?_⟩
    exact ⟨fun h => Option.some.inj h ▸ found, fun h => congrArg some (found.unique h)⟩

/-- The layer on which a section is closed counts, whatever it was opened on. -/
example : closings [] [.setLayer 2, .openSection "a".toList, .writeText "x".toList, .setLayer 1,
    .closeSection, .openSection "a".toList, .setLayer 3, .endPass] =
      [⟨1, "a".toList, [.text "x".toList]⟩, ⟨3, "a".toList, []⟩] := by decide

end Layout

end Stencil
