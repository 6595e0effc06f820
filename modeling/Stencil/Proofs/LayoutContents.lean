import Mathlib.Data.List.Chain
import Stencil.Proofs.LayoutChain

/-!
# What a layout holds

What has been written is in the output of the running pass, in the outputs that wait for their
passes, in open sections or in regions. `Layout.Holds` says that all of it has some property; the
operations keep a property of fragments that nothing has and that every way of adding fragments
preserves. One of these is that text is never scattered (`Tidy`): no text is empty, and none follows
another.
-/

namespace Stencil

/-! ## Tidy fragments -/

namespace Fragment

def isText : Fragment → Bool
  | .text _ => true
  | .placeholder _ => false

def Apart (a b : Fragment) : Prop := a.isText = false ∨ b.isText = false

end Fragment

/-- No text is empty, and none follows another. -/
structure Tidy (fragments : List Fragment) : Prop where
  filled : .text [] ∉ fragments
  apart : fragments.IsChain Fragment.Apart

theorem tidy_nil : Tidy [] := ⟨List.not_mem_nil, List.isChain_nil⟩

section Concat

variable {fragments : List Fragment} {fragment : Fragment}

theorem tidy_concat (h : Tidy fragments) (filled : fragment ≠ .text [])
    (apart : ∀ last ∈ fragments.getLast?, last.Apart fragment) :
    Tidy (fragments ++ [fragment]) := by
  constructor
  · simp [h.filled, filled.symm]
  · refine List.isChain_append.mpr ⟨h.apart, List.isChain_singleton _, fun last hl next hn => ?_⟩
    obtain rfl : fragment = next := by simpa using hn
    exact apart last hl

theorem Tidy.of_concat (h : Tidy (fragments ++ [fragment])) :
    Tidy fragments ∧ fragment ≠ .text [] ∧ ∀ last ∈ fragments.getLast?, last.Apart fragment := by
  have filled : .text [] ∉ fragments ∧ .text [] ≠ fragment := by simpa [not_or] using h.filled
  obtain ⟨before, -, apart⟩ := List.isChain_append.mp h.apart
  exact ⟨⟨filled.1, before⟩, filled.2.symm, fun last hl => apart last hl fragment (by simp)⟩

end Concat

theorem Fragment.pushText_concat_text (text last : Text) (front : List Fragment) :
    pushText text (front ++ [.text last]) = front ++ [.text (last ++ text)] := by
  induction front with
  | nil => rfl
  | cons first front ih =>
    cases front with
    | nil => cases first <;> simp [pushText]
    | cons second front => cases first <;> simpa [pushText] using ih

theorem Fragment.pushText_concat_placeholder {text : Text} (filled : text ≠ []) (name : Text)
    (front : List Fragment) :
    pushText text (front ++ [.placeholder name]) =
      front ++ [.placeholder name] ++ [.text text] := by
  induction front with
  | nil => simp [pushText, filled]
  | cons first front ih =>
    cases front with
    | nil => cases first <;> simp [pushText, filled]
    | cons second front => cases first <;> simpa [pushText] using ih

theorem Tidy.pushText {fragments : List Fragment} (h : Tidy fragments) (text : Text) :
    Tidy (Fragment.pushText text fragments) := by
  by_cases filled : text = []
  · rwa [filled, Fragment.pushText_nil]
  · rcases List.eq_nil_or_concat' fragments with rfl | ⟨front, last, rfl⟩
    · have single : Tidy ([] ++ [.text text]) :=
        tidy_concat tidy_nil (by simpa using filled) (by simp)
      simpa [Fragment.pushText, filled] using single
    · obtain ⟨before, -, apart⟩ := h.of_concat
      cases last with
      | text last =>
        rw [Fragment.pushText_concat_text]
        exact tidy_concat before (by simp [filled]) apart
      | placeholder name =>
        rw [Fragment.pushText_concat_placeholder filled]
        refine tidy_concat h (by simpa using filled) fun last hl => .inl ?_
        obtain rfl : Fragment.placeholder name = last := by simpa using hl
        rfl

theorem Tidy.placeholder {fragments : List Fragment} (h : Tidy fragments) (name : Text) :
    Tidy (fragments ++ [.placeholder name]) :=
  tidy_concat h (by simp) fun _ _ => .inr rfl

/-! ## All that a layout holds -/

namespace Layout

/-- All that has been written to a layout and not been handed over has a property. -/
structure Holds (fine : List Fragment → Prop) (l : Layout) : Prop where
  output : fine l.output
  suspended : ∀ fragments ∈ l.suspended, fine fragments
  sections : ∀ top ∈ l.sections, fine top.body
  regions : ∀ name region, l.regions.find? name = some region → fine region.body

variable {fine : List Fragment → Prop} {l : Layout}

theorem settle_fine {layer : Nat} {closed : OpenSection} {regions : NameMap Region}
    (hc : fine closed.body)
    (hr : ∀ name region, regions.find? name = some region → fine region.body)
    (name : Text) (region : Region)
    (h : (settle layer closed regions).find? name = some region) : fine region.body := by
  have inserted (h : (regions.insert closed.name ⟨layer, closed.body⟩).find? name = some region) :
      fine region.body := by
    by_cases hn : name = closed.name
    · subst hn
      rw [NameMap.find?_insert_self] at h
      obtain rfl := Option.some.inj h
      exact hc
    · rw [NameMap.find?_insert_of_ne _ hn] at h
      exact hr name region h
  unfold settle at h
  split at h
  · split at h
    · exact hr name region h
    · exact inserted h
  · exact inserted h

theorem closeWhile_fine (pass layer : Nat) {sections : List OpenSection} {regions : NameMap Region}
    (hs : ∀ top ∈ sections, fine top.body)
    (hr : ∀ name region, regions.find? name = some region → fine region.body) :
    (∀ top ∈ (closeWhile pass layer sections regions).1, fine top.body) ∧
      ∀ name region, (closeWhile pass layer sections regions).2.find? name = some region →
        fine region.body := by
  induction sections generalizing regions with
  | nil => exact ⟨hs, hr⟩
  | cons top rest ih =>
    unfold closeWhile
    split
    · exact ih (fun other ho => hs other (List.mem_cons_of_mem _ ho))
        (settle_fine (hs top (List.mem_cons_self ..)) hr)
    · exact ⟨hs, hr⟩

theorem holds_initial (nil : fine []) : Layout.initial.Holds fine :=
  ⟨nil, by simp [Layout.initial], by simp [Layout.initial], by simp [Layout.initial]⟩

namespace Holds

variable (h : l.Holds fine)

include h

/-- Only what is written to matters. -/
theorem of_eq {m : Layout} (output : m.output = l.output) (suspended : m.suspended = l.suspended)
    (sections : m.sections = l.sections) (regions : m.regions = l.regions) : m.Holds fine :=
  ⟨output ▸ h.output, suspended ▸ h.suspended, sections ▸ h.sections, regions ▸ h.regions⟩

theorem closeSection : l.closeSection.Holds fine := by
  unfold Layout.closeSection
  split
  · next top rest hs =>
    split
    · exact ⟨h.output, h.suspended,
        fun other ho => h.sections other (hs ▸ List.mem_cons_of_mem _ ho),
        settle_fine (h.sections top (hs ▸ List.mem_cons_self ..)) h.regions⟩
    · exact h
  · exact h

theorem openSection (nil : fine []) (name : Text) : (l.openSection name).Holds fine := by
  have closed := h.closeSection
  refine ⟨closed.output, closed.suspended, fun top ht => ?_, closed.regions⟩
  rcases List.mem_cons.mp ht with rfl | ht
  · exact nil
  · exact closed.sections top ht

theorem writeWith {add : List Fragment → List Fragment}
    (ha : ∀ fragments, fine fragments → fine (add fragments)) : (l.writeWith add).Holds fine := by
  unfold Layout.writeWith
  split
  · next top rest hs =>
    split
    · refine ⟨h.output, h.suspended, fun other ho => ?_, h.regions⟩
      rcases List.mem_cons.mp ho with rfl | ho
      · exact ha _ (h.sections top (hs ▸ List.mem_cons_self ..))
      · exact h.sections other (hs ▸ List.mem_cons_of_mem _ ho)
    · exact ⟨ha _ h.output, h.suspended, h.sections, h.regions⟩
  · exact ⟨ha _ h.output, h.suspended, h.sections, h.regions⟩

theorem beginPass (nil : fine []) : l.beginPass.Holds fine := by
  refine ⟨nil, fun fragments hf => ?_, h.sections, h.regions⟩
  rcases List.mem_cons.mp hf with rfl | hf
  · exact h.output
  · exact h.suspended fragments hf

/-- The running pass hands over what it wrote, and the one around it has its own again. -/
theorem endPass (nil : fine []) : fine l.endPass.1 ∧ l.endPass.2.Holds fine := by
  obtain ⟨sections, regions⟩ := closeWhile_fine l.pass l.layer h.sections h.regions
  refine ⟨h.output, ?_, fun fragments hf => h.suspended fragments (List.mem_of_mem_tail hf),
    sections, regions⟩
  show fine (l.suspended.headD [])
  cases hs : l.suspended with
  | nil => exact nil
  | cons first rest => exact h.suspended first (hs ▸ List.mem_cons_self ..)

theorem enterScope : l.enterScope.2.Holds fine :=
  ⟨h.output, h.suspended, h.sections, fun name region hf => by simp [Layout.enterScope] at hf⟩

/-- The regions that were set aside come back, with what is in them. -/
theorem leaveScope {m : Layout} (hm : m.Holds fine) : (m.leaveScope l.enterScope.1).Holds fine :=
  ⟨hm.output, hm.suspended, hm.sections, h.regions⟩

end Holds

end Layout

end Stencil
