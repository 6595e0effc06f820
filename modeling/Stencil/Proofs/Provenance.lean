import Stencil.Proofs.Entities
import Stencil.Proofs.Executed
import Stencil.Proofs.LayoutContents
import Stencil.Proofs.NestedView

/-!
# Where output comes from

A render of programs that escape every value and do not call the host writes nothing but texts of
these programs and escaped values. Proved here:

* `nodes_madeOf`: a run of one program adds only such pieces to the layout, wherever they go;
* `render_madeOf`: so the output of a whole render is made of such pieces, and a character that has
  a meaning in markup, the ampersand apart, is in the output only if a text of a program has it.
-/

namespace Stencil

namespace Artifact

mutual

/-- The texts that a node can write as they are. -/
def Node.texts : Node → List Text
  | .text text => [text]
  | .loop _ _ body => textsOf body
  | _ => []

def textsOf : List Node → List Text
  | [] => []
  | node :: nodes => node.texts ++ textsOf nodes

end

mutual

/-- A node escapes the values that it writes and does not call the host. -/
def Node.escapes : Node → Bool
  | .echo _ escape => escape
  | .loop _ _ body => allEscape body
  | .call operation _ => operation ≠ .hook
  | _ => true

def allEscape : List Node → Bool
  | [] => true
  | node :: nodes => node.escapes && allEscape nodes

end

end Artifact

/-! ## Pieces -/

section MadeOf

variable {piece : Text → Prop}

/-- A text is put together from pieces. -/
def MadeOf (piece : Text → Prop) (text : Text) : Prop :=
  ∃ pieces : List Text, text = pieces.flatten ∧ ∀ part ∈ pieces, piece part

theorem madeOf_nil : MadeOf piece [] := ⟨[], rfl, by simp⟩

theorem madeOf_piece {text : Text} (h : piece text) : MadeOf piece text := ⟨[text], by simp, by simpa⟩

theorem MadeOf.append {a b : Text} (ha : MadeOf piece a) (hb : MadeOf piece b) :
    MadeOf piece (a ++ b) := by
  obtain ⟨left, rfl, hl⟩ := ha
  obtain ⟨right, rfl, hr⟩ := hb
  refine ⟨left ++ right, by simp, fun part hp => ?_⟩
  rcases List.mem_append.mp hp with h | h
  · exact hl part h
  · exact hr part h

def FragmentsMadeOf (piece : Text → Prop) (fragments : List Fragment) : Prop :=
  ∀ text, .text text ∈ fragments → MadeOf piece text

theorem fragmentsMadeOf_nil : FragmentsMadeOf piece [] := by
  intro text h
  simp at h

theorem FragmentsMadeOf.pushText {text : Text} (ht : MadeOf piece text)
    {fragments : List Fragment} (h : FragmentsMadeOf piece fragments) :
    FragmentsMadeOf piece (Fragment.pushText text fragments) := by
  induction fragments with
  | nil =>
    intro other ho
    unfold Fragment.pushText at ho
    split at ho
    · simp at ho
    · obtain rfl : other = text := by simpa using ho
      exact ht
  | cons first rest ih =>
    have hr : FragmentsMadeOf piece rest := fun other ho => h other (List.mem_cons_of_mem _ ho)
    intro other ho
    cases rest with
    | nil =>
      cases first with
      | text last =>
        obtain rfl : other = last ++ text := by simpa [Fragment.pushText] using ho
        exact (h last (List.mem_cons_self ..)).append ht
      | placeholder name =>
        simp only [Fragment.pushText, List.mem_cons, reduceCtorEq, false_or] at ho
        exact ih hr other ho
    | cons second rest =>
      have hpush : Fragment.pushText text (first :: second :: rest) =
          first :: Fragment.pushText text (second :: rest) := by
        cases first <;> rfl
      rw [hpush] at ho
      rcases List.mem_cons.mp ho with rfl | ho
      · exact h other (List.mem_cons_self ..)
      · exact ih hr other ho

theorem FragmentsMadeOf.placeholder {fragments : List Fragment}
    (h : FragmentsMadeOf piece fragments) (name : Text) :
    FragmentsMadeOf piece (fragments ++ [.placeholder name]) := by
  intro text ht
  exact h text (by simpa using ht)

def RegionsMadeOf (piece : Text → Prop) (regions : NameMap Region) : Prop :=
  ∀ name region, regions.find? name = some region → FragmentsMadeOf piece region.body

end MadeOf

/-- Placeholders stand for what is in the regions. -/
theorem resolveIn_madeOf {piece : Text → Prop} {regions : NameMap Region}
    (hr : RegionsMadeOf piece regions) (active : List Text) (fragments : List Fragment)
    (hf : FragmentsMadeOf piece fragments) :
    MadeOf piece (resolveIn regions active fragments) := by
  induction active, fragments using resolveIn.induct regions with
  | case1 active =>
    rw [resolveIn]
    exact madeOf_nil
  | case2 active text rest ih =>
    rw [resolveIn]
    exact (hf text (List.mem_cons_self ..)).append (ih fun t ht => hf t (List.mem_cons_of_mem _ ht))
  | case3 active name rest ihr ih =>
    rw [resolveIn_placeholder]
    refine MadeOf.append ?_ (ih fun t ht => hf t (List.mem_cons_of_mem _ ht))
    split
    · exact madeOf_nil
    · next hn =>
      split
      · next region hfind => exact ihr hn region hfind (hr name region hfind)
      · exact madeOf_nil

/-! ## The layout -/

/-- All that has been written to a layout is put together from pieces. -/
structure Layout.HoldsOnly (piece : Text → Prop) (l : Layout) : Prop where
  output : FragmentsMadeOf piece l.output
  suspended : ∀ fragments ∈ l.suspended, FragmentsMadeOf piece fragments
  sections : ∀ top ∈ l.sections, FragmentsMadeOf piece top.body
  regions : RegionsMadeOf piece l.regions

namespace Layout

variable {piece : Text → Prop} {l : Layout}

theorem HoldsOnly.holds (h : l.HoldsOnly piece) : l.Holds (FragmentsMadeOf piece) :=
  ⟨h.output, h.suspended, h.sections, h.regions⟩

theorem Holds.holdsOnly (h : l.Holds (FragmentsMadeOf piece)) : l.HoldsOnly piece :=
  ⟨h.output, h.suspended, h.sections, h.regions⟩

namespace HoldsOnly

variable (h : l.HoldsOnly piece)

include h

theorem closeSection : l.closeSection.HoldsOnly piece := h.holds.closeSection.holdsOnly

theorem openSection (name : Text) : (l.openSection name).HoldsOnly piece :=
  (h.holds.openSection fragmentsMadeOf_nil name).holdsOnly

theorem writeText {text : Text} (ht : MadeOf piece text) : (l.writeText text).HoldsOnly piece := by
  rw [writeText_eq_writeWith]
  exact (h.holds.writeWith fun _ hf => hf.pushText ht).holdsOnly

theorem writePlaceholder (name : Text) : (l.writePlaceholder name).HoldsOnly piece :=
  (h.holds.writeWith fun _ hf => hf.placeholder name).holdsOnly

theorem beginPass : l.beginPass.HoldsOnly piece := (h.holds.beginPass fragmentsMadeOf_nil).holdsOnly

theorem endPass : FragmentsMadeOf piece l.endPass.1 ∧ l.endPass.2.HoldsOnly piece :=
  (h.holds.endPass fragmentsMadeOf_nil).imp_right Holds.holdsOnly

theorem setParent (parent : Option Text) : (l.setParent parent).HoldsOnly piece :=
  ⟨h.output, h.suspended, h.sections, h.regions⟩

theorem setLayer (layer : Nat) : (l.setLayer layer).HoldsOnly piece :=
  ⟨h.output, h.suspended, h.sections, h.regions⟩

theorem declareParent (view : Text) : (l.declareParent view).HoldsOnly piece :=
  ⟨h.output, h.suspended, h.sections, h.regions⟩

theorem setImport (name content : Text) : (l.setImport name content).HoldsOnly piece :=
  ⟨h.output, h.suspended, h.sections, h.regions⟩

theorem enterScope : l.enterScope.2.HoldsOnly piece := h.holds.enterScope.holdsOnly

/-- The regions of the caller come back, with what is in them. -/
theorem leaveScope {m : Layout} (hm : m.HoldsOnly piece) :
    (m.leaveScope l.enterScope.1).HoldsOnly piece := (h.holds.leaveScope hm.holds).holdsOnly

end HoldsOnly

end Layout

/-! ## Programs -/

namespace Run

variable {piece : Text → Prop} {run : Run} {s t : RenderState}

/-- A nested view that is asked for adds pieces only, to its output as to the layout. -/
def Delivers (piece : Text → Prop) (nested : Text → Rendering Text)
    (request : Text × RenderState) : Prop :=
  request.2.layout.HoldsOnly piece → ∀ output t, nested request.1 request.2 = (.ok output, t) →
    MadeOf piece output ∧ t.layout.HoldsOnly piece

theorem withName_madeOf {args : List Text} {f : Text → Layout → Layout} {u : Unit}
    (hf : ∀ name (l : Layout), l.HoldsOnly piece → (f name l).HoldsOnly piece)
    (hs : s.layout.HoldsOnly piece) (h : run.withName args f s = (.ok u, t)) :
    t.layout.HoldsOnly piece := by
  obtain ⟨name, s', hn, h⟩ := Step.bind_ok h
  obtain rfl := evalName_ok hn
  cases name with
  | none =>
    obtain rfl : s = t := (Prod.mk.inj h).2
    exact hs
  | some name =>
    obtain rfl := onLayout_ok h
    exact hf name _ hs

theorem includeView_madeOf {args : List Text} {u : Unit} (hs : s.layout.HoldsOnly piece)
    (hn : ∀ request ∈ run.includeRequests args s, Delivers piece run.nested request)
    (h : run.includeView args s = (.ok u, t)) : t.layout.HoldsOnly piece := by
  rcases includeView_ok h with ⟨-, rfl⟩ | ⟨target, _, output, last, _, asked, rfl, ran, rfl⟩
  · exact hs
  · obtain ⟨made, holds⟩ := hn _ (asked ▸ List.mem_singleton.mpr rfl) hs output last ran
    exact holds.writeText made

theorem importView_madeOf {args : List Text} {u : Unit} (hs : s.layout.HoldsOnly piece)
    (hn : ∀ request ∈ run.importRequests args s, Delivers piece run.nested request)
    (h : run.importView args s = (.ok u, t)) : t.layout.HoldsOnly piece := by
  rcases importView_ok h with ⟨-, rfl⟩ | ⟨target, name, output, last, asked, ran, rfl⟩
  · exact hs
  · obtain ⟨-, holds⟩ := hn _ (asked ▸ List.mem_singleton.mpr rfl) hs output last ran
    exact holds.setImport name output

theorem perform_madeOf {operation : Artifact.Call} {args : List Text} {u : Unit}
    (he : operation ≠ .hook) (hs : s.layout.HoldsOnly piece)
    (hn : ∀ request ∈ run.performRequests operation args s, Delivers piece run.nested request)
    (h : run.perform operation args s = (.ok u, t)) : t.layout.HoldsOnly piece := by
  cases operation with
  | extend =>
    exact withName_madeOf (f := fun name l => l.declareParent name)
      (fun name _ hl => hl.declareParent name) hs h
  | startSection =>
    exact withName_madeOf (f := fun name l => l.openSection name)
      (fun name _ hl => hl.openSection name) hs h
  | content =>
    exact withName_madeOf (f := fun name l => l.writePlaceholder name)
      (fun name _ hl => hl.writePlaceholder name) hs h
  | includeView => exact includeView_madeOf hs hn h
  | importView => exact importView_madeOf hs hn h
  | hook => exact absurd rfl he

/-- All rounds of a loop add pieces only when its body does. -/
theorem forEach_madeOf {body : Rendering Unit} {requests : Requests}
    (hb : ∀ s t u, s.layout.HoldsOnly piece →
      (∀ request ∈ requests s, Delivers piece run.nested request) → body s = (.ok u, t) →
      t.layout.HoldsOnly piece)
    {rounds : List (List (Text × Value))} {s : RenderState} {u : Unit}
    (hs : s.layout.HoldsOnly piece)
    (hn : ∀ request ∈ forEachRequests body requests rounds s, Delivers piece run.nested request)
    (h : forEach body rounds s = (.ok u, t)) : t.layout.HoldsOnly piece := by
  induction rounds generalizing s with
  | nil =>
    obtain rfl : s = t := (Prod.mk.inj h).2
    exact hs
  | cons bindings rest ih =>
    obtain ⟨_, s', hf, h⟩ := Step.bind_ok h
    simp only [forEachRequests, Listing.after_of_ok hf, List.mem_append] at hn
    obtain ⟨v, hv, rfl⟩ := inFrame_ok hf
    have first : (v.mapScope Scope.pop).layout.HoldsOnly piece :=
      hb (s.mapScope (·.push bindings)) v _ hs (fun request hm => hn request (.inl hm)) hv
    exact ih first (fun request hm => hn request (.inr hm)) h

mutual

theorem node_madeOf (escaped : ∀ raw, piece (Markup.escape raw)) :
    ∀ (node : Artifact.Node), node.escapes = true → (∀ text ∈ node.texts, piece text) →
      ∀ {s t : RenderState} {u : Unit}, s.layout.HoldsOnly piece →
      (∀ request ∈ nodeRequests run node s, Delivers piece run.nested request) →
      Run.node run node s = (.ok u, t) → t.layout.HoldsOnly piece
  | .text text, _, ht, s, t, u, hs, _, h => by
    unfold Run.node at h
    obtain rfl := onLayout_ok h
    exact hs.writeText (madeOf_piece (ht text (by simp [Artifact.Node.texts])))
  | .echo expr escape, he, _, s, t, u, hs, _, h => by
    obtain rfl : escape = true := by simpa [Artifact.Node.escapes] using he
    unfold Run.node at h
    obtain ⟨value, s', hv, h⟩ := Step.bind_ok h
    obtain rfl := eval_ok hv
    obtain rfl := onLayout_ok h
    exact hs.writeText (madeOf_piece (escaped _))
  | .loop iterable binding body, he, ht, s, t, u, hs, hn, h => by
    unfold Run.node at h
    obtain ⟨value, s₁, hv, h⟩ := Step.bind_ok h
    obtain ⟨rounds, s₂, hr, h⟩ := Step.bind_ok h
    have asked : nodeRequests run (.loop iterable binding body) s =
        forEachRequests (nodes run body) (nodesRequests run body) rounds s₂ := by
      unfold nodeRequests
      rw [Listing.after_of_ok hv, Listing.after_of_ok hr]
    rw [asked] at hn
    obtain rfl := eval_ok hv
    obtain rfl := rounds_ok hr
    exact forEach_madeOf
      (fun s t u hs hn h => nodes_madeOf escaped body (by simpa [Artifact.Node.escapes] using he)
        (by simpa [Artifact.Node.texts] using ht) hs hn h) hs hn h
  | .assign name expr, _, _, s, t, u, hs, _, h => by
    unfold Run.node at h
    obtain ⟨value, s', hv, h⟩ := Step.bind_ok h
    obtain rfl := eval_ok hv
    obtain rfl : _ = t := (Prod.mk.inj h).2
    exact hs
  | .stopSection, _, _, s, t, u, hs, _, h => by
    unfold Run.node at h
    obtain rfl := onLayout_ok h
    exact hs.closeSection
  | .call operation args, he, _, s, t, u, hs, hn, h => by
    unfold Run.node at h
    unfold nodeRequests at hn
    exact perform_madeOf (by simpa [Artifact.Node.escapes] using he) hs hn h

/-- Nodes that escape add texts of theirs and escaped values only. -/
theorem nodes_madeOf (escaped : ∀ raw, piece (Markup.escape raw)) :
    ∀ (program : List Artifact.Node), Artifact.allEscape program = true →
      (∀ text ∈ Artifact.textsOf program, piece text) →
      ∀ {s t : RenderState} {u : Unit}, s.layout.HoldsOnly piece →
      (∀ request ∈ nodesRequests run program s, Delivers piece run.nested request) →
      Run.nodes run program s = (.ok u, t) → t.layout.HoldsOnly piece
  | [], _, _, s, t, u, hs, _, h => by
    unfold Run.nodes at h
    obtain rfl : s = t := (Prod.mk.inj h).2
    exact hs
  | first :: rest, he, ht, s, t, u, hs, hn, h => by
    unfold Run.nodes at h
    obtain ⟨_, s', hf, h⟩ := Step.bind_ok h
    unfold nodesRequests at hn
    simp only [Listing.after_of_ok hf, List.mem_append] at hn
    simp only [Artifact.allEscape, Bool.and_eq_true] at he
    simp only [Artifact.textsOf, List.mem_append] at ht
    have middle := node_madeOf escaped first he.1 (fun text hm => ht text (.inl hm)) hs
      (fun request hm => hn request (.inl hm)) hf
    exact nodes_madeOf escaped rest he.2 (fun text hm => ht text (.inr hm)) middle
      (fun request hm => hn request (.inr hm)) h

end

end Run

/-! ## Renders -/

namespace Renderer

variable {piece : Text → Prop} {r : Renderer} {s t : RenderState}

/-- A program that escapes what it writes and has no text but pieces. -/
def Harmless (piece : Text → Prop) (program : Artifact.Program) : Prop :=
  Artifact.allEscape program = true ∧ ∀ text ∈ Artifact.textsOf program, piece text

/-- A view whose program is harmless, if it has one. -/
def Visit.Harmless (r : Renderer) (piece : Text → Prop) (visit : Visit) : Prop :=
  ∀ entry ∈ visit.program? r, Renderer.Harmless piece entry.2

section Chain

variable (escaped : ∀ raw, piece (Markup.escape raw)) {nested : Text → Text → Rendering Text}
  {visits : Text → Text → Listing Visit}
  (hn : ∀ caller target s, (∀ visit ∈ visits caller target s, visit.Harmless r piece) →
    Run.Delivers piece (nested caller) (target, s))

include escaped hn

theorem execute_madeOf {view : Text} {output : List Fragment} (hs : s.layout.HoldsOnly piece)
    (harmless : ∀ visit ∈ r.executeVisits nested visits view s, visit.Harmless r piece)
    (h : r.execute nested view s = (.ok output, t)) :
    FragmentsMadeOf piece output ∧ t.layout.HoldsOnly piece := by
  obtain ⟨program, tree, u, found, run, rfl, rfl⟩ := execute_ok h
  have compiled : onTree (r.program view) s = (.ok program, { s with tree }) := by
    simp only [onTree, found]
  simp only [executeVisits, Listing.after_of_ok compiled, List.forall_mem_cons] at harmless
  obtain ⟨own, inner⟩ := harmless
  obtain ⟨escapes, texts⟩ := own (view, program) (by simp [Visit.program?, found])
  have written := Run.nodes_madeOf escaped program escapes texts hs.beginPass
    (fun request hm => hn view request.1 request.2 fun visit hv =>
      inner visit (List.mem_flatMap.mpr ⟨request, hm, hv⟩)) run
  exact written.endPass

/-- The output of the last layout of a chain is put together from pieces. -/
theorem follow_madeOf {fuel : Nat} {visited : List Text} {view : Text} {output : List Fragment}
    (hs : s.layout.HoldsOnly piece)
    (harmless : ∀ visit ∈ r.followVisits nested visits fuel visited view s,
      visit.Harmless r piece)
    (h : r.follow nested fuel visited view s = (.ok output, t)) :
    FragmentsMadeOf piece output ∧ t.layout.HoldsOnly piece := by
  induction fuel generalizing visited view s with
  | zero => simp [follow_zero] at h
  | succ fuel ih =>
    obtain ⟨own, u, run, goes⟩ := follow_ok h
    simp only [followVisits_of_execute run, List.mem_append] at harmless
    obtain ⟨made, holds⟩ :=
      execute_madeOf escaped hn hs (fun visit hm => harmless visit (.inl hm)) run
    rcases goes with ⟨-, rfl, rfl⟩ | ⟨parent, next, rest⟩
    · exact ⟨made, holds.setParent none⟩
    · simp only [next] at harmless
      exact ih ((holds.setParent none).setLayer _) (fun visit hm => harmless visit (.inr hm)) rest

theorem chain_madeOf {view : Text} {output : List Fragment} (hs : s.layout.HoldsOnly piece)
    (harmless : ∀ visit ∈ r.chainVisits nested visits view s, visit.Harmless r piece)
    (h : r.chain nested view s = (.ok output, t)) :
    FragmentsMadeOf piece output ∧ t.layout.HoldsOnly piece := by
  obtain ⟨u, followed, rfl⟩ := chain_ok h
  obtain ⟨made, holds⟩ := follow_madeOf escaped hn (hs.setParent none) harmless followed
  exact ⟨made, (holds.setLayer _).setParent _⟩

end Chain

/-- A nested view adds pieces only when all programs that it runs are harmless. -/
theorem nestedAt_madeOf (escaped : ∀ raw, piece (Markup.escape raw)) (room : Nat)
    (caller target : Text) (s : RenderState)
    (harmless : ∀ visit ∈ r.nestedVisitsAt room caller target s, visit.Harmless r piece) :
    Run.Delivers piece (r.nestedAt room caller) (target, s) := by
  induction room generalizing caller target s with
  | zero =>
    intro _ output t h
    simp [nestedAt_zero] at h
  | succ room ih =>
    intro hs output t h
    obtain ⟨fresh, fragments, u, ran, rfl, rfl⟩ := nestedAt_ok h
    simp only [nestedVisitsAt_succ, fresh, ↓reduceIte] at harmless
    obtain ⟨made, holds⟩ := chain_madeOf escaped ih hs.enterScope harmless ran
    exact ⟨resolveIn_madeOf holds.regions [] fragments made, hs.leaveScope holds⟩

theorem holdsOnly_initial : Layout.initial.HoldsOnly piece :=
  (Layout.holds_initial fragmentsMadeOf_nil).holdsOnly

/-- A text of one of some programs, or an escaped one. -/
def TextOrEscaped (programs : List (Text × Artifact.Program)) (text : Text) : Prop :=
  (∃ entry ∈ programs, text ∈ Artifact.textsOf entry.2) ∨ ∃ raw, text = Markup.escape raw

/-- When no program of a render writes a value without escaping it or calls the host, the output is
put together from texts of these programs and escaped values, and has no delimiter that is in none
of these texts. -/
theorem render_madeOf {view output : Text} {data : Variables} {tree tree' : Files.Tree}
    (h : r.render view data tree = (.ok output, tree'))
    (escapes : ∀ entry ∈ r.executed view data tree, Artifact.allEscape entry.2 = true) :
    MadeOf (TextOrEscaped (r.executed view data tree)) output ∧
      ∀ c ∈ Markup.delimiters,
        (∀ entry ∈ r.executed view data tree, ∀ text ∈ Artifact.textsOf entry.2, c ∉ text) →
        c ∉ output := by
  have made : MadeOf (TextOrEscaped (r.executed view data tree)) output := by
    unfold render at h
    cases hc : r.chain (r.nestedAt maxIncludes) view (start data tree) with
    | mk result s =>
      cases result with
      | error error => simp [hc] at h
      | ok fragments =>
        simp only [hc] at h
        obtain ⟨same, -⟩ := Prod.mk.inj h
        obtain rfl := Except.ok.inj same
        have escaped (raw : Text) :
            TextOrEscaped (r.executed view data tree) (Markup.escape raw) := .inr ⟨raw, rfl⟩
        have harmless : ∀ visit ∈ r.visits view data tree,
            visit.Harmless r (TextOrEscaped (r.executed view data tree)) := by
          intro visit hv entry he
          have ran := List.mem_filterMap.mpr ⟨visit, hv, he⟩
          exact ⟨escapes entry ran, fun text ht => .inl ⟨entry, ran, ht⟩⟩
        obtain ⟨made, holds⟩ := chain_madeOf escaped (nestedAt_madeOf escaped maxIncludes)
          holdsOnly_initial harmless hc
        exact resolveIn_madeOf holds.regions [] fragments made
  refine ⟨made, fun c hc absent hm => ?_⟩
  obtain ⟨pieces, rfl, hp⟩ := made
  obtain ⟨part, hpart, hcp⟩ := List.mem_flatten.mp hm
  rcases hp part hpart with ⟨entry, he, ht⟩ | ⟨raw, rfl⟩
  · exact absent entry he part ht hcp
  · exact Markup.delimiter_notMem_escape hc raw hcp

/-! A page writes a value into a section of its layout. -/

section Example

def siteFiles : Files.Tree :=
  ⟨[(["v".toList], .directory 0o755 0), (["o".toList], .directory 0o755 0),
    (["v".toList, "page.tmpl".toList], .file (.text []) 1),
    (["v".toList, "site.tmpl".toList], .file (.text []) 1),
    (["o".toList, "page.out".toList], .file (.text
      ("<?vm layout.extend(site) ?><?vm layout.start_section(body) ?>".toList ++
        "<?vm echo escape(a\"b) ?><?vm layout.stop_section() ?>".toList)) 2),
    (["o".toList, "site.out".toList], .file (.text
      "<p><?vm layout.content(body) ?></p>".toList) 2)], [], 5⟩

/-- Both programs escape, and the quotation mark is in none of their texts. -/
theorem executed_page :
    (pages.executed "page".toList .empty siteFiles).map Prod.fst =
      ["page".toList, "site".toList] ∧
    ∀ entry ∈ pages.executed "page".toList .empty siteFiles,
      Artifact.allEscape entry.2 = true ∧ ∀ text ∈ Artifact.textsOf entry.2, '"' ∉ text := by
  decide +kernel

theorem chain_page :
    (match pages.chain (pages.nestedAt maxIncludes) "page".toList (start .empty siteFiles) with
      | (.ok output, t) => decide (output =
            [.text "<p>".toList, .placeholder "body".toList, .text "</p>".toList] ∧
          t.layout.regions = ⟨[("body".toList, ⟨0, [.text "a&quot;b".toList]⟩)]⟩)
      | (.error _, _) => false) = true := by
  decide +kernel

theorem render_page : (pages.render "page".toList .empty siteFiles).1 =
    .ok "<p>a&quot;b</p>".toList := by
  have page := chain_page
  unfold render
  generalize pages.chain (pages.nestedAt maxIncludes) "page".toList (start .empty siteFiles) =
    outcome at page ⊢
  obtain ⟨result, t⟩ := outcome
  cases result with
  | error error => simp at page
  | ok output =>
    obtain ⟨rfl, regions⟩ := of_decide_eq_true page
    simp [Layout.finish, Layout.resolve, regions, resolveIn_placeholder, NameMap.find?, NameMap.lookup]

theorem render_madeOf_page :
    (pages.render "page".toList .empty siteFiles).1 = .ok "<p>a&quot;b</p>".toList ∧
      (pages.executed "page".toList .empty siteFiles).map Prod.fst =
        ["page".toList, "site".toList] ∧
      (∀ entry ∈ pages.executed "page".toList .empty siteFiles,
        Artifact.allEscape entry.2 = true) ∧
      MadeOf (TextOrEscaped (pages.executed "page".toList .empty siteFiles))
        "<p>a&quot;b</p>".toList ∧
      '"' ∉ "<p>a&quot;b</p>".toList := by
  obtain ⟨views, harmless⟩ := executed_page
  have escapes : ∀ entry ∈ pages.executed "page".toList .empty siteFiles,
      Artifact.allEscape entry.2 = true := fun entry he => (harmless entry he).1
  have run := (Prod.eta (pages.render "page".toList .empty siteFiles)).symm
  rw [render_page] at run
  obtain ⟨made, absent⟩ := render_madeOf run escapes
  exact ⟨render_page, views, escapes, made,
    absent '"' (by decide) fun entry he => (harmless entry he).2⟩

end Example

end Renderer

end Stencil
