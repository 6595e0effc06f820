import Mathlib.Data.List.Basic
import Stencil.Layout.Resolve

/-!
# Chains of layouts

The templates of a chain run one after the other, child first, each in a pass of its own and one
layer above the one before. What comes out is said here without passes, layers and buffers: a
template is split into what it writes outside its sections (`ownWrites`) and its sections
(`sectionsOf`), a region is the last section of its name in the lowest template that has one
(`regionOf`), and a placeholder expands to its region (`Expands`).

Proved here, for every chain: `runChain_expands`, the assembled output is the expansion of what the
last template writes outside its sections. A pass leaves behind exactly the sections of its template
(`runTemplate_eq`), and the regions after it are those of the lowest templates so far
(`filled_runTemplate`).
-/

namespace Stencil

/-! ## Templates -/

/-- What a template does to the layout. -/
inductive LayoutCall
  | writeText (text : Text)
  | writePlaceholder (name : Text)
  | openSection (name : Text)
  | closeSection
  deriving DecidableEq, Repr

def LayoutCall.apply : LayoutCall → Layout → Layout
  | .writeText text, l => l.writeText text
  | .writePlaceholder name, l => l.writePlaceholder name
  | .openSection name, l => l.openSection name
  | .closeSection, l => l.closeSection

abbrev Template := List LayoutCall

namespace Layout

def perform (l : Layout) (calls : Template) : Layout :=
  calls.foldl (fun l call => call.apply l) l

def runTemplate (l : Layout) (template : Template) : List Fragment × Layout :=
  (l.beginPass.perform template).endPass

/-- Runs a template and those above it, raising the layer in between. The fragments are those of the
last template. -/
def runChain (l : Layout) : Template → List Template → List Fragment × Layout
  | template, [] => l.runTemplate template
  | template, next :: above =>
    let (_, l) := l.runTemplate template
    (l.setLayer (l.layer + 1)).runChain next above

end Layout

/-! ## What a chain means -/

/-- What a template writes outside its sections, `inside` when it starts in one. -/
def ownWrites (inside : Bool) : Template → List Fragment
  | [] => []
  | .writeText text :: rest =>
    if inside then ownWrites inside rest else .text text :: ownWrites inside rest
  | .writePlaceholder name :: rest =>
    if inside then ownWrites inside rest else .placeholder name :: ownWrites inside rest
  | .openSection _ :: rest => ownWrites true rest
  | .closeSection :: rest => ownWrites false rest

/-- What is written until a section is opened or closed. -/
def bodyOf : Template → List Fragment
  | .writeText text :: rest => .text text :: bodyOf rest
  | .writePlaceholder name :: rest => .placeholder name :: bodyOf rest
  | _ => []

/-- The sections of a template with their bodies, in order. -/
def sectionsOf : Template → List (Text × List Fragment)
  | [] => []
  | .openSection name :: rest => (name, bodyOf rest) :: sectionsOf rest
  | _ :: rest => sectionsOf rest

def lastBody? (name : Text) (sections : List (Text × List Fragment)) : Option (List Fragment) :=
  (sections.reverse.find? (·.1 = name)).map Prod.snd

/-- The content of a region: the lowest template with a section of the name counts. -/
def regionOf (templates : List Template) (name : Text) : Option (List Fragment) :=
  templates.findSome? fun template => lastBody? name (sectionsOf template)

/-- Fragments expand to a text while the regions of `active` are being expanded. -/
inductive Expands (region : Text → Option (List Fragment)) :
    List Text → List Fragment → Text → Prop
  | nil {active} : Expands region active [] []
  | text {active text rest out} (tail : Expands region active rest out) :
      Expands region active (.text text :: rest) (text ++ out)
  | unknown {active name rest out} (missing : region name = none)
      (tail : Expands region active rest out) :
      Expands region active (.placeholder name :: rest) out
  | inside {active name rest out} (mem : name ∈ active)
      (tail : Expands region active rest out) :
      Expands region active (.placeholder name :: rest) out
  | region {active name body rest inner out} (notMem : name ∉ active)
      (found : region name = some body) (content : Expands region (name :: active) body inner)
      (tail : Expands region active rest out) :
      Expands region active (.placeholder name :: rest) (inner ++ out)

/-- Fragments expand to at most one text. -/
theorem Expands.unique {region : Text → Option (List Fragment)} {active : List Text}
    {fragments : List Fragment} {out out' : Text} (h : Expands region active fragments out)
    (h' : Expands region active fragments out') : out = out' := by
  induction h generalizing out' with
  | nil => cases h'; rfl
  | text _ ih =>
    cases h' with
    | text tail => rw [ih tail]
  | unknown hn _ ih =>
    cases h' with
    | unknown _ tail => exact ih tail
    | inside _ tail => exact ih tail
    | region _ hs _ _ => simp [hn] at hs
  | inside hm _ ih =>
    cases h' with
    | unknown _ tail => exact ih tail
    | inside _ tail => exact ih tail
    | region hn _ _ _ => exact absurd hm hn
  | region hn hs _ _ ihc iht =>
    cases h' with
    | unknown hnone _ => simp [hs] at hnone
    | inside hm _ => exact absurd hm hn
    | region _ hs' content tail =>
      obtain rfl := Option.some.inj (hs.symm.trans hs')
      rw [ihc content, iht tail]

/-! ## Writing -/

namespace Fragment

/-- Adds a fragment at the end, text behind text becoming one fragment. -/
def push (fragments : List Fragment) : Fragment → List Fragment
  | .text more => pushText more fragments
  | .placeholder name => fragments ++ [.placeholder name]

def pushAll (fragments written : List Fragment) : List Fragment := written.foldl push fragments

theorem pushAll_cons (fragments : List Fragment) (first : Fragment) (written : List Fragment) :
    pushAll fragments (first :: written) = pushAll (push fragments first) written := rfl

theorem pushText_nil (fragments : List Fragment) : pushText [] fragments = fragments := by
  induction fragments with
  | nil => rfl
  | cons fragment rest ih =>
    cases fragment with
    | placeholder name => simp [pushText, ih]
    | text last => cases rest <;> simp_all [pushText]

end Fragment

@[simp] theorem resolveIn_nil (regions : NameMap Region) (active : List Text) :
    resolveIn regions active [] = [] := by
  rw [resolveIn]

@[simp] theorem resolveIn_text (regions : NameMap Region) (active : List Text) (text : Text)
    (rest : List Fragment) :
    resolveIn regions active (.text text :: rest) = text ++ resolveIn regions active rest := by
  rw [resolveIn]

theorem resolveIn_placeholder (regions : NameMap Region) (active : List Text) (name : Text)
    (rest : List Fragment) :
    resolveIn regions active (.placeholder name :: rest) =
      (if name ∈ active then []
        else
          match regions.find? name with
          | some region => resolveIn regions (name :: active) region.body
          | none => []) ++ resolveIn regions active rest := by
  rw [resolveIn]
  by_cases hn : name ∈ active
  · simp [hn]
  · simp only [hn, ↓reduceDIte, ↓reduceIte]
    split <;> simp_all

theorem resolveIn_append (regions : NameMap Region) (active : List Text) (a b : List Fragment) :
    resolveIn regions active (a ++ b) =
      resolveIn regions active a ++ resolveIn regions active b := by
  induction a with
  | nil => simp
  | cons fragment rest ih =>
    cases fragment with
    | text text => simp [ih]
    | placeholder name =>
      rw [List.cons_append, resolveIn_placeholder, resolveIn_placeholder, ih, List.append_assoc]

/-- Putting texts together does not show. -/
theorem resolveIn_pushText (regions : NameMap Region) (active : List Text) (text : Text)
    (fragments : List Fragment) :
    resolveIn regions active (Fragment.pushText text fragments) =
      resolveIn regions active fragments ++ text := by
  induction fragments with
  | nil => cases text <;> simp [Fragment.pushText]
  | cons fragment rest ih =>
    cases fragment with
    | placeholder name =>
      rw [Fragment.pushText, resolveIn_placeholder, ih, resolveIn_placeholder, List.append_assoc]
      simp
    | text last =>
      cases rest with
      | nil => simp [Fragment.pushText]
      | cons next rest => rw [Fragment.pushText, resolveIn, ih, resolveIn, List.append_assoc]; simp

theorem resolveIn_pushAll (regions : NameMap Region) (active : List Text)
    (fragments written : List Fragment) :
    resolveIn regions active (Fragment.pushAll fragments written) =
      resolveIn regions active fragments ++ resolveIn regions active written := by
  induction written generalizing fragments with
  | nil => simp [Fragment.pushAll]
  | cons first written ih =>
    rw [Fragment.pushAll_cons, ih]
    cases first with
    | text text => simp [Fragment.push, resolveIn_pushText]
    | placeholder name =>
      rw [Fragment.push, resolveIn_append, List.append_assoc, ← resolveIn_append]
      rfl

/-! ## One pass -/

namespace Layout

theorem writeText_eq_writeWith (l : Layout) (text : Text) :
    l.writeText text = l.writeWith (Fragment.pushText text) := by
  cases text with
  | cons c text => rfl
  | nil =>
    have same : Fragment.pushText [] = id := funext Fragment.pushText_nil
    show l = l.writeWith (Fragment.pushText [])
    unfold writeWith
    rw [same]
    split
    · next top rest hs =>
      split
      · show l = { l with sections := top :: rest }
        rw [← hs]
      · rfl
    · rfl

/-- Settles closed sections, by name and body, on one layer and in order. -/
def settleAll (layer : Nat) (closed : List (Text × List Fragment)) (regions : NameMap Region) :
    NameMap Region :=
  closed.foldl (fun regions top => settle layer ⟨top.1, 0, top.2⟩ regions) regions

def closedBy (template : Template) : List (Text × List Fragment) :=
  (sectionsOf template).map fun top => (top.1, Fragment.pushAll [] top.2)

/-- The open section of the running pass, if there is one, is the only open section. -/
def InPass (l : Layout) (current : Option (Text × List Fragment)) : Prop :=
  l.sections = (current.map fun top => ⟨top.1, l.pass, top.2⟩).toList

/-- The section that is open and those that the remaining calls open, in the order in which they are
closed. -/
def stillClosed (current : Option (Text × List Fragment)) (calls : Template) :
    List (Text × List Fragment) :=
  (current.map fun top => (top.1, Fragment.pushAll top.2 (bodyOf calls))).toList ++ closedBy calls

theorem writeWith_outside {l : Layout} (h : l.InPass none)
    (add : List Fragment → List Fragment) :
    l.writeWith add = { l with output := add l.output } := by
  simp only [InPass, Option.map_none, Option.toList_none] at h
  simp [writeWith, h]

theorem writeWith_inside {l : Layout} {top : Text × List Fragment} (h : l.InPass (some top))
    (add : List Fragment → List Fragment) :
    l.writeWith add = { l with sections := [⟨top.1, l.pass, add top.2⟩] } := by
  simp only [InPass, Option.map_some, Option.toList_some] at h
  simp [writeWith, h]

theorem writeText_eq_push {l : Layout} {current : Option (Text × List Fragment)}
    (h : l.InPass current) (text : Text) :
    l.writeText text = l.writeWith fun fragments => Fragment.push fragments (.text text) := by
  cases text with
  | cons c text => rfl
  | nil =>
    cases current with
    | none => simp [writeText, writeWith_outside h, Fragment.push, Fragment.pushText_nil]
    | some top =>
      simp only [writeText, List.isEmpty_nil, ↓reduceIte, writeWith_inside h, Fragment.push,
        Fragment.pushText_nil]
      exact congrArg (fun sections => { l with sections }) h

theorem closeSection_outside {l : Layout} (h : l.InPass none) : l.closeSection = l := by
  simp only [InPass, Option.map_none, Option.toList_none] at h
  simp [closeSection, h]

theorem closeSection_inside {l : Layout} {top : Text × List Fragment}
    (h : l.InPass (some top)) :
    l.closeSection =
      { l with sections := [], regions := settle l.layer ⟨top.1, 0, top.2⟩ l.regions } := by
  simp only [InPass, Option.map_some, Option.toList_some] at h
  simp only [closeSection, h, ↓reduceIte]
  rfl

/-- What the remaining calls of a pass leave behind when the pass ends. -/
structure EndsAs (l : Layout) (current : Option (Text × List Fragment)) (calls : Template) :
    Prop where
  output : (l.perform calls).endPass.1 = Fragment.pushAll l.output (ownWrites current.isSome calls)
  regions : (l.perform calls).endPass.2.regions =
    settleAll l.layer (stillClosed current calls) l.regions
  sections : (l.perform calls).endPass.2.sections = []
  layer : (l.perform calls).endPass.2.layer = l.layer

theorem endsAs_nil {l : Layout} {current : Option (Text × List Fragment)} (h : l.InPass current) :
    l.EndsAs current [] := by
  cases current with
  | none =>
    simp only [InPass, Option.map_none, Option.toList_none] at h
    constructor <;>
      simp [perform, endPass, h, closeWhile, ownWrites, stillClosed, closedBy, sectionsOf,
        settleAll, Fragment.pushAll]
  | some top =>
    simp only [InPass, Option.map_some, Option.toList_some] at h
    constructor <;>
      simp [perform, endPass, h, closeWhile, ownWrites, stillClosed, closedBy, sectionsOf,
        settleAll, Fragment.pushAll, bodyOf, settle]

section Calls

variable {l : Layout} {current : Option (Text × List Fragment)} {calls : Template}
  (ih : ∀ (l : Layout) (current : Option (Text × List Fragment)), l.InPass current →
    l.EndsAs current calls)

include ih

/-- A call that writes goes to the open section or to the output, whatever it writes. -/
theorem endsAs_write {call : LayoutCall} {written : Fragment} (h : l.InPass current)
    (ha : call.apply l = l.writeWith fun fragments => Fragment.push fragments written)
    (ho : ∀ inside, ownWrites inside (call :: calls) =
      if inside then ownWrites inside calls else written :: ownWrites inside calls)
    (hb : bodyOf (call :: calls) = written :: bodyOf calls)
    (hs : sectionsOf (call :: calls) = sectionsOf calls) : l.EndsAs current (call :: calls) := by
  have step : l.perform (call :: calls) = (call.apply l).perform calls := rfl
  cases current with
  | none =>
    rw [writeWith_outside h] at ha
    obtain ⟨output, regions, sections, layer⟩ :=
      ih { l with output := Fragment.push l.output written } none h
    constructor <;> rw [step, ha]
    · simpa [ho, Fragment.pushAll_cons] using output
    · simpa [stillClosed, closedBy, hs] using regions
    · exact sections
    · exact layer
  | some top =>
    rw [writeWith_inside h] at ha
    obtain ⟨output, regions, sections, layer⟩ :=
      ih { l with sections := [⟨top.1, l.pass, Fragment.push top.2 written⟩] }
        (some (top.1, Fragment.push top.2 written)) rfl
    constructor <;> rw [step, ha]
    · simpa [ho] using output
    · simpa [stillClosed, closedBy, hs, hb, Fragment.pushAll_cons] using regions
    · exact sections
    · exact layer

/-- A section that is opened closes the one before. -/
theorem endsAs_openSection (h : l.InPass current) (name : Text) :
    l.EndsAs current (.openSection name :: calls) := by
  have step : l.perform (.openSection name :: calls) = (l.openSection name).perform calls := rfl
  cases current with
  | none =>
    have opened : (l.openSection name).InPass (some (name, [])) := by
      simp only [InPass, Option.map_none, Option.toList_none] at h
      simp [openSection, closeSection, h, InPass, pass]
    obtain ⟨output, regions, sections, layer⟩ := ih (l.openSection name) (some (name, [])) opened
    constructor <;> rw [step]
    · simpa [ownWrites, openSection, closeSection_outside h] using output
    · simpa [stillClosed, closedBy, sectionsOf, openSection, closeSection_outside h] using regions
    · exact sections
    · simpa [openSection, closeSection_outside h] using layer
  | some top =>
    have opened : (l.openSection name).InPass (some (name, [])) := by
      simp [openSection, closeSection_inside h, InPass, pass]
    obtain ⟨output, regions, sections, layer⟩ := ih (l.openSection name) (some (name, [])) opened
    constructor <;> rw [step]
    · simpa [ownWrites, openSection, closeSection_inside h] using output
    · simpa [stillClosed, closedBy, sectionsOf, openSection, closeSection_inside h, settleAll,
        bodyOf, Fragment.pushAll] using regions
    · exact sections
    · simpa [openSection, closeSection_inside h] using layer

theorem endsAs_closeSection (h : l.InPass current) : l.EndsAs current (.closeSection :: calls) := by
  have step : l.perform (.closeSection :: calls) = l.closeSection.perform calls := rfl
  cases current with
  | none =>
    obtain ⟨output, regions, sections, layer⟩ := ih l none h
    constructor <;> rw [step, closeSection_outside h]
    · simpa [ownWrites] using output
    · simpa [stillClosed, closedBy, sectionsOf] using regions
    · exact sections
    · exact layer
  | some top =>
    have closed : l.closeSection.InPass none := by
      rw [closeSection_inside h]
      rfl
    obtain ⟨output, regions, sections, layer⟩ := ih l.closeSection none closed
    constructor <;> rw [step]
    · simpa [ownWrites, closeSection_inside h] using output
    · simpa [stillClosed, closedBy, sectionsOf, closeSection_inside h, settleAll, bodyOf,
        Fragment.pushAll] using regions
    · exact sections
    · simpa [closeSection_inside h] using layer

end Calls

/-- Running the remaining calls of a pass and ending it. -/
theorem perform_endPass (calls : Template) (l : Layout) (current : Option (Text × List Fragment))
    (h : l.InPass current) : l.EndsAs current calls := by
  induction calls generalizing l current with
  | nil => exact endsAs_nil h
  | cons call calls ih =>
    cases call with
    | writeText text =>
      exact endsAs_write ih h (writeText_eq_push h text) (fun _ => rfl) rfl rfl
    | writePlaceholder name =>
      exact endsAs_write ih h rfl (fun _ => rfl) rfl rfl
    | openSection name => exact endsAs_openSection ih h name
    | closeSection => exact endsAs_closeSection ih h

/-- A template leaves behind what it wrote outside its sections, and its sections. -/
theorem runTemplate_eq (l : Layout) (template : Template) (h : l.sections = []) :
    (l.runTemplate template).1 = Fragment.pushAll [] (ownWrites false template) ∧
      (l.runTemplate template).2.regions = settleAll l.layer (closedBy template) l.regions ∧
      (l.runTemplate template).2.sections = [] ∧ (l.runTemplate template).2.layer = l.layer := by
  obtain ⟨output, regions, sections, layer⟩ := perform_endPass template l.beginPass none h
  exact ⟨output, regions, sections, layer⟩

end Layout

/-! ## A chain -/

/-- A section on the layer replaces what a name holds. -/
def replaces (layer : Nat) : Option Region → Bool
  | some region => layer ≤ region.layer
  | none => true

theorem settle_find? (layer : Nat) (closed : OpenSection) (regions : NameMap Region)
    (name : Text) :
    (Layout.settle layer closed regions).find? name =
      if closed.name = name ∧ replaces layer (regions.find? name) = true then
        some ⟨layer, closed.body⟩
      else regions.find? name := by
  by_cases hn : closed.name = name
  · subst hn
    unfold Layout.settle
    cases hf : regions.find? closed.name with
    | none => simp [replaces]
    | some region =>
      by_cases hl : region.layer < layer
      · have : ¬ layer ≤ region.layer := by omega
        simp [hl, hf, replaces, this]
      · have : layer ≤ region.layer := by omega
        simp [hl, replaces, this]
  · have ne : name ≠ closed.name := Ne.symm hn
    unfold Layout.settle
    cases hf : regions.find? closed.name with
    | none => simp [hn, NameMap.find?_insert_of_ne _ ne]
    | some region =>
      by_cases hl : region.layer < layer
      · simp [hl, hn]
      · simp [hl, hn, NameMap.find?_insert_of_ne _ ne]

theorem lastBody?_cons (name : Text) (top : Text × List Fragment)
    (sections : List (Text × List Fragment)) :
    lastBody? name (top :: sections) =
      (lastBody? name sections).or (if top.1 = name then some top.2 else none) := by
  unfold lastBody?
  rw [List.reverse_cons, List.find?_append]
  cases sections.reverse.find? (·.1 = name) with
  | some found => simp
  | none => by_cases h : top.1 = name <;> simp [h]

/-- A region that a lower layer filled stays; otherwise the last section of the name fills it. -/
theorem settleAll_find? (layer : Nat) (closed : List (Text × List Fragment))
    (regions : NameMap Region) (name : Text) :
    (Layout.settleAll layer closed regions).find? name =
      if replaces layer (regions.find? name) = true then
        ((lastBody? name closed).map fun body => ⟨layer, body⟩).or (regions.find? name)
      else regions.find? name := by
  induction closed generalizing regions with
  | nil => simp [Layout.settleAll, lastBody?]
  | cons top closed ih =>
    have step : Layout.settleAll layer (top :: closed) regions =
        Layout.settleAll layer closed (Layout.settle layer ⟨top.1, 0, top.2⟩ regions) := rfl
    have again : replaces layer (some ⟨layer, top.2⟩) = true := by simp [replaces]
    rw [step, ih, settle_find?, lastBody?_cons]
    by_cases hr : replaces layer (regions.find? name) = true
    · by_cases hn : top.1 = name
      · cases lastBody? name closed <;> simp [hr, hn, again]
      · cases lastBody? name closed <;> simp [hr, hn]
    · simp [hr]

/-- The regions are those of the templates, each filled on a layer below the bound. -/
def Filled (bound : Nat) (regions : NameMap Region) (templates : List Template) : Prop :=
  ∀ name, (regionOf templates name = none ∧ regions.find? name = none) ∨
    ∃ body layer, regionOf templates name = some body ∧ layer < bound ∧
      regions.find? name = some ⟨layer, Fragment.pushAll [] body⟩

theorem lastBody?_closedBy (name : Text) (template : Template) :
    lastBody? name (Layout.closedBy template) =
      (lastBody? name (sectionsOf template)).map (Fragment.pushAll []) := by
  unfold Layout.closedBy
  generalize sectionsOf template = sections
  induction sections with
  | nil => rfl
  | cons top sections ih =>
    rw [List.map_cons, lastBody?_cons, lastBody?_cons, ih]
    by_cases h : top.1 = name <;> cases lastBody? name sections <;> simp [h]

theorem regionOf_append (below : List Template) (template : Template) (name : Text) :
    regionOf (below ++ [template]) name =
      (regionOf below name).or (lastBody? name (sectionsOf template)) := by
  simp [regionOf, List.findSome?_append]

/-- A template fills the regions that no template below it fills. -/
theorem filled_runTemplate {l : Layout} {below : List Template} (template : Template)
    (hs : l.sections = []) (h : Filled l.layer l.regions below) :
    Filled (l.layer + 1) (l.runTemplate template).2.regions (below ++ [template]) := by
  obtain ⟨-, hr, -, -⟩ := Layout.runTemplate_eq l template hs
  intro name
  rw [hr, settleAll_find?, regionOf_append, lastBody?_closedBy]
  rcases h name with ⟨hn, hf⟩ | ⟨body, layer, hb, hlt, hf⟩
  · cases hl : lastBody? name (sectionsOf template) with
    | none => exact Or.inl ⟨by simp [hn], by simp [hf]⟩
    | some body =>
      exact Or.inr ⟨body, l.layer, by simp [hn], Nat.lt_succ_self _, by simp [hf, replaces]⟩
  · refine Or.inr ⟨body, layer, by simp [hb], Nat.lt_succ_of_lt hlt, ?_⟩
    have : ¬ l.layer ≤ layer := by omega
    simp [hf, replaces, this]

/-- A chain that goes on above some templates hands over the last template's own output and fills
the regions of all of them. -/
theorem runChain_eq (above : List Template) (first : Template) (below : List Template) (l : Layout)
    (hs : l.sections = []) (h : Filled l.layer l.regions below) :
    (l.runChain first above).1 =
        Fragment.pushAll [] (ownWrites false (above.getLastD first)) ∧
      ∃ bound, Filled bound (l.runChain first above).2.regions (below ++ first :: above) := by
  induction above generalizing first below l with
  | nil =>
    exact ⟨(Layout.runTemplate_eq l first hs).1, _, filled_runTemplate first hs h⟩
  | cons next above ih =>
    obtain ⟨-, -, hs', hl⟩ := Layout.runTemplate_eq l first hs
    have filled := filled_runTemplate first hs h
    have rest := ih next (below ++ [first])
      ((l.runTemplate first).2.setLayer ((l.runTemplate first).2.layer + 1)) hs'
      (by simpa [Layout.setLayer, hl] using filled)
    rw [List.getLastD_cons]
    simpa only [Layout.runChain, List.append_assoc, List.singleton_append] using rest

/-- Resolving expands, when the regions are those of the templates. -/
theorem expands_resolveIn {bound : Nat} {regions : NameMap Region} {templates : List Template}
    (h : Filled bound regions templates) (active : List Text) (fragments : List Fragment) :
    Expands (regionOf templates) active fragments (resolveIn regions active fragments) := by
  match fragments with
  | [] => rw [resolveIn]; exact .nil
  | .text text :: rest => rw [resolveIn]; exact .text (expands_resolveIn h active rest)
  | .placeholder name :: rest =>
    have tail := expands_resolveIn h active rest
    rw [resolveIn_placeholder]
    by_cases hm : name ∈ active
    · simpa [hm] using Expands.inside hm tail
    · rcases h name with ⟨hn, hf⟩ | ⟨body, layer, hb, -, hf⟩
      · simpa [hm, hf] using Expands.unknown hn tail
      · have := unresolvedCount_cons_lt hm hf
        have content := expands_resolveIn h (name :: active) body
        have merged : resolveIn regions (name :: active) (Fragment.pushAll [] body) =
            resolveIn regions (name :: active) body := by
          simp [resolveIn_pushAll]
        simpa [hm, hf, merged] using Expands.region hm hb content tail
termination_by (unresolvedCount regions active, fragments.length)

/-- The output of a chain is the expansion of what its last template writes outside its sections,
with the last section of a name in the lowest template that has one as the content of a region. -/
theorem runChain_expands (first : Template) (above : List Template) (out : Text) :
    let (fragments, l) := Layout.initial.runChain first above
    (l.finish fragments).1 = out ↔
      Expands (regionOf (first :: above)) [] (ownWrites false (above.getLastD first)) out := by
  obtain ⟨hf, bound, filled⟩ := runChain_eq above first [] Layout.initial rfl
    (fun name => Or.inl ⟨rfl, rfl⟩)
  have resolved : ((Layout.initial.runChain first above).2.finish
      (Layout.initial.runChain first above).1).1 =
      resolveIn (Layout.initial.runChain first above).2.regions []
        (ownWrites false (above.getLastD first)) := by
    rw [hf]
    simp [Layout.finish, Layout.resolve, resolveIn_pushAll]
  have expands := expands_resolveIn filled [] (ownWrites false (above.getLastD first))
  show ((Layout.initial.runChain first above).2.finish
      (Layout.initial.runChain first above).1).1 = out ↔ _
  rw [resolved]
  constructor
  · rintro rfl; exact expands
  · intro h; exact expands.unique h

end Stencil
