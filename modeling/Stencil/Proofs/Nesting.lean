import Stencil.Proofs.RuleMatches
import Stencil.Proofs.TopLevel

/-!
# Nesting of balanced captures

A balanced slot counts the brackets that are open and forgets of which kind they are. `Nesting` is
the same reading with the brackets kept, the last one on top. Proved here:

* `admits_balanced_iff`: a balanced slot accepts the texts of one line in which every closing bracket
  closes the last one that is open, whatever its kind, and no bracket and no string is left open;
* `wellNested_iff`: such a text is well nested exactly when each bracket is closed by one of its own
  kind (`KindsAgree`);
* `balanced_captures_nested`: so much holds of the balanced captures of every match, and no more:
  `crossed_capture`.
-/

namespace Stencil

/-! ## Brackets that are open -/

/-- A reading of brackets and strings. -/
inductive Nesting
  /-- Outside strings, with these brackets open, the last one first. -/
  | plain (opened : Text)
  /-- Inside a string that `mark` opened. -/
  | quoted (opened : Text) (mark : Char)
  /-- Inside a string, right after a backslash. -/
  | escaped (opened : Text) (mark : Char)
  deriving DecidableEq, Repr

namespace Nesting

open Scan (isQuote isOpener isCloser)

/-- Reads one character. A closing bracket has to close the last bracket that is open, and may do so
when `closes` says so of the two. -/
def step? (closes : Char → Char → Bool) : Nesting → Char → Option Nesting
  | .plain opened, c =>
    if isQuote c then some (.quoted opened c)
    else if isOpener c then some (.plain (c :: opened))
    else if isCloser c then
      match opened with
      | opener :: opened => if closes opener c then some (.plain opened) else none
      | [] => none
    else some (.plain opened)
  | .quoted opened mark, c =>
    if c == '\\' then some (.escaped opened mark)
    else if c == mark then some (.plain opened)
    else some (.quoted opened mark)
  | .escaped opened mark, _ => some (.quoted opened mark)

def run? (closes : Char → Char → Bool) : Nesting → Text → Option Nesting
  | nesting, [] => some nesting
  | nesting, c :: rest => (nesting.step? closes c).bind fun next => next.run? closes rest

def anyKind : Char → Char → Bool := fun _ _ => true

def sameKind (opener closer : Char) : Bool :=
  [('(', ')'), ('[', ']'), ('{', '}')].contains (opener, closer)

/-- The place of the reading that only counts. -/
def counted : Nesting → Scan
  | .plain opened => .plain opened.length
  | .quoted opened mark => .quoted opened.length mark
  | .escaped opened mark => .escaped opened.length mark

end Nesting

open Nesting (anyKind sameKind run?)

/-- Every closing bracket outside strings closes the last one that is open, and may do so; no bracket
and no string is left open. -/
def Nested (closes : Char → Char → Bool) (text : Text) : Prop :=
  run? closes (.plain []) text = some (.plain [])

/-- Every closing bracket outside strings closes the last one that is open, which is of its kind; no
bracket and no string is left open. -/
def WellNested (text : Text) : Prop := Nested sameKind text

/-- Where a bracket outside strings closes one, both are of one kind. -/
def KindsAgree (text : Text) : Prop :=
  ∀ before c after opener opened, text = before ++ c :: after → Scan.isCloser c = true →
    run? anyKind (.plain []) before = some (.plain (opener :: opened)) → sameKind opener c = true

instance (closes : Char → Char → Bool) : DecidablePred (Nested closes) := fun text =>
  inferInstanceAs (Decidable (run? closes (.plain []) text = some (.plain [])))

instance : DecidablePred WellNested := fun text =>
  inferInstanceAs (Decidable (Nested sameKind text))

/-! ## Counting and nesting -/

namespace Nesting

open Scan (isQuote isOpener isCloser)

theorem counted_eq_start_iff {nesting : Nesting} :
    nesting.counted = .plain 0 ↔ nesting = .plain [] := by
  cases nesting <;> simp [counted]

/-- When the kinds of brackets do not matter, a character can be read unless it is a bracket that
closes nothing, and the count goes along. -/
theorem step?_anyKind (nesting : Nesting) (c : Char) :
    (nesting.step? anyKind c).map counted =
      if nesting.counted.stray c then none else some (nesting.counted.step c) := by
  cases nesting with
  | plain opened =>
    cases hc : isCloser c with
    | true =>
      obtain ⟨hq, ho⟩ := Scan.of_isCloser hc
      cases opened <;> simp [step?, anyKind, counted, Scan.step, Scan.stray, hq, ho, hc]
    | false =>
      cases hq : isQuote c with
      | true => simp [step?, counted, Scan.step, Scan.stray, hq, hc]
      | false =>
        cases ho : isOpener c <;> simp [step?, counted, Scan.step, Scan.stray, hq, ho, hc]
  | quoted opened mark =>
    by_cases hb : c = '\\'
    · simp [step?, counted, Scan.step, Scan.stray, hb]
    · by_cases hm : c = mark
      · subst hm
        simp [step?, counted, Scan.step, Scan.stray, hb]
      · simp [step?, counted, Scan.step, Scan.stray, hb, hm]
  | escaped opened mark => simp [step?, counted, Scan.step, Scan.stray]

/-- A balanced slot reads on one line what can be read when the kinds of brackets do not matter. -/
theorem run?_anyKind (nesting : Nesting) {text : Text} (feed : '\n' ∉ text) :
    (nesting.run? anyKind text).map counted =
      (Segment.capture .balanced).scanned nesting.counted text := by
  induction text generalizing nesting with
  | nil => rfl
  | cons c rest ih =>
    rw [List.mem_cons, not_or] at feed
    obtain ⟨here, behind⟩ := feed
    have one := nesting.step?_anyKind c
    have extend : (Segment.capture .balanced).extend nesting.counted c =
        (nesting.step? anyKind c).map counted := by
      rw [one]
      simp [Segment.extend, Ne.symm here]
    rw [run?, Segment.scanned, extend]
    cases nesting.step? anyKind c with
    | none => rfl
    | some next => exact ih next behind

/-! ## Kinds -/

theorem step?_eq_some_iff {closes : Char → Char → Bool} {nesting next : Nesting} {c : Char} :
    nesting.step? closes c = some next ↔
      nesting.step? anyKind c = some next ∧
        (isCloser c = true → ∀ opener opened, nesting = .plain (opener :: opened) →
          closes opener c = true) := by
  cases nesting with
  | plain opened =>
    cases hc : isCloser c with
    | true =>
      obtain ⟨hq, ho⟩ := Scan.of_isCloser hc
      cases opened with
      | nil => simp [step?, hq, ho, hc]
      | cons opener opened =>
        cases hk : closes opener c <;> simp [step?, anyKind, hq, ho, hc, hk]
    | false => simp [step?, hc]
  | quoted opened mark => simp [step?]
  | escaped opened mark => simp [step?]

/-- A text that can be read when the kinds do not matter can be read otherwise when the brackets that
close one another may do so. -/
theorem run?_eq_some_iff {closes : Char → Char → Bool} {nesting last : Nesting} {text : Text} :
    nesting.run? closes text = some last ↔
      nesting.run? anyKind text = some last ∧
        ∀ before c after opener opened, text = before ++ c :: after → isCloser c = true →
          nesting.run? anyKind before = some (.plain (opener :: opened)) →
          closes opener c = true := by
  induction text generalizing nesting with
  | nil => simp [run?]
  | cons c rest ih =>
    simp only [run?, Option.bind_eq_some_iff]
    constructor
    · rintro ⟨next, step, later⟩
      obtain ⟨step, kind⟩ := step?_eq_some_iff.mp step
      obtain ⟨later, kinds⟩ := ih.mp later
      refine ⟨⟨next, step, later⟩, fun before d after opener opened split closer reads => ?_⟩
      cases before with
      | nil =>
        obtain ⟨rfl, -⟩ := List.cons.inj split
        exact kind closer opener opened (Option.some.inj reads)
      | cons e before =>
        obtain ⟨rfl, rfl⟩ := List.cons.inj split
        rw [run?, step] at reads
        exact kinds before d after opener opened rfl closer reads
    · rintro ⟨⟨next, step, later⟩, kinds⟩
      refine ⟨next, step?_eq_some_iff.mpr ⟨step, fun closer opener opened here => ?_⟩,
        ih.mpr ⟨later, fun before d after opener opened split closer reads => ?_⟩⟩
      · exact kinds [] c rest opener opened rfl closer (by rw [here]; rfl)
      · refine kinds (c :: before) d after opener opened (by rw [split]; rfl) closer ?_
        rw [run?, step]
        exact reads

end Nesting

theorem wellNested_iff {text : Text} :
    WellNested text ↔ Nested anyKind text ∧ KindsAgree text := Nesting.run?_eq_some_iff

/-- A balanced slot accepts what is nested on one line, brackets of different kinds being as good as
those of one kind. -/
theorem admits_balanced_iff {earlier : Option Char} {slice : Text} :
    (Segment.capture .balanced).Admits earlier slice ↔
      '\n' ∉ slice ∧ Nested anyKind slice := by
  have scanned : (Segment.capture .balanced).Admits earlier slice ↔
      (Segment.capture .balanced).scanned .start slice = some (.plain 0) :=
    (Segment.scanned_balanced .start (.plain 0) slice).symm
  have onLine (feed : '\n' ∉ slice) : (Segment.capture .balanced).scanned .start slice =
      (run? anyKind (.plain []) slice).map Nesting.counted :=
    (Nesting.run?_anyKind (.plain []) feed).symm
  constructor
  · intro h
    have feed : '\n' ∉ slice := h.1
    rw [scanned, onLine feed, Option.map_eq_some_iff] at h
    obtain ⟨last, reads, closed⟩ := h
    exact ⟨feed, by rw [Nested, reads, Nesting.counted_eq_start_iff.mp closed]⟩
  · rintro ⟨feed, reads⟩
    rw [scanned, onLine feed, show run? anyKind (.plain []) slice = _ from reads]
    rfl

/-! ## Captures of a match -/

/-- The spans of the capture slots hold slices that these slots admit. -/
theorem forall₂_slots {text after : Text} {segments : List Segment} {earlier : Option Char}
    {spans : List Span} {slices : List Text} (admitted : Admitted segments earlier after slices)
    (h : List.Forall₂ text.IsSlice spans slices) :
    List.Forall₂ (fun slot span => ∃ slice earlier, text.IsSlice span slice ∧
      slot.Admits earlier slice) (segments.filter Segment.isCapture)
      (captureSpans segments spans) := by
  induction segments generalizing earlier after spans slices with
  | nil => exact .nil
  | cons segment segments ih =>
    obtain ⟨slice, rest, more, rfl, -, here, later⟩ := admitted
    cases h with
    | cons isSlice behind =>
      have tail := ih later behind
      cases hc : segment.isCapture with
      | true =>
        simp only [captureSpans, List.filter_cons, hc, ↓reduceIte]
        exact .cons ⟨slice, earlier, isSlice, here⟩ tail
      | false =>
        simp only [captureSpans, List.filter_cons, hc, Bool.false_eq_true, ↓reduceIte]
        exact tail

theorem Pattern.slots_of_matchAt {p : Pattern} {text : Text} {place : Nat} {hit : Match}
    (h : p.matchAt text place = some hit) :
    List.Forall₂ (fun slot span => ∃ slice earlier, text.IsSlice span slice ∧
      slot.Admits earlier slice) (p.segments.filter Segment.isCapture) hit.captures := by
  obtain ⟨before, after, slices, rfl, admitted, rfl⟩ := Pattern.slices_of_matchAt h
  exact forall₂_slots admitted (forall₂_spansFrom before after slices)

/-- In every match the text of a balanced capture is one in which every closing bracket outside
strings closes the last one that is open, and no bracket and no string is left open. It is well
nested exactly when the brackets that close one another are of one kind, which a balanced slot does
not ask for: it accepts all such texts of one line. -/
theorem balanced_captures_nested {p : Pattern} {text : Text} {hit : Match}
    (found : (∃ place, p.matchAt text place = some hit) ∨
      ∃ offset, p.findAt text offset = some hit) :
    List.Forall₂ (fun slot span => ∃ slice, text.IsSlice span slice ∧
        (slot = .capture .balanced → '\n' ∉ slice ∧ Nested anyKind slice ∧
          (WellNested slice ↔ KindsAgree slice)))
      (p.segments.filter Segment.isCapture) hit.captures ∧
    ∀ earlier slice, (Segment.capture .balanced).Admits earlier slice ↔
      '\n' ∉ slice ∧ Nested anyKind slice := by
  have slots : List.Forall₂ (fun slot span => ∃ slice earlier, text.IsSlice span slice ∧
      slot.Admits earlier slice) (p.segments.filter Segment.isCapture) hit.captures := by
    rcases found with ⟨place, h⟩ | ⟨offset, h⟩
    · exact p.slots_of_matchAt h
    · obtain ⟨place, leftmost⟩ := p.exists_leftmost_of_findAt h
      exact p.slots_of_matchAt leftmost.here
  refine ⟨slots.imp fun slot span admitted => ?_, fun _ _ => admits_balanced_iff⟩
  obtain ⟨slice, earlier, isSlice, admits⟩ := admitted
  refine ⟨slice, isSlice, ?_⟩
  rintro rfl
  obtain ⟨feed, nested⟩ := admits_balanced_iff.mp admits
  exact ⟨feed, nested, by rw [wellNested_iff, and_iff_right nested]⟩

def callPattern : Pattern := ⟨[.literal "f(".toList, .capture .balanced, .literal ")".toList]⟩

theorem balanced_captures_nested_call :
    callPattern.findAt "a f(g['x)\\'']) b".toList 0 = some ⟨⟨2, 14⟩, [⟨4, 13⟩]⟩ ∧
      ∃ slice, Text.IsSlice "a f(g['x)\\'']) b".toList ⟨4, 13⟩ slice ∧
        Nested anyKind slice ∧ (WellNested slice ↔ KindsAgree slice) ∧
        slice = "g['x)\\'']".toList ∧ WellNested slice := by
  have found : callPattern.findAt "a f(g['x)\\'']) b".toList 0 =
      some ⟨⟨2, 14⟩, [⟨4, 13⟩]⟩ := by decide +kernel
  have whole : Text.IsSlice "a f(g['x)\\'']) b".toList ⟨4, 13⟩ "g['x)\\'']".toList :=
    ⟨"a f(".toList, ") b".toList, by decide, by decide, by decide⟩
  have slots := (balanced_captures_nested (Or.inr ⟨0, found⟩)).1
  have slot : callPattern.segments.filter Segment.isCapture = [.capture .balanced] := rfl
  rw [slot] at slots
  obtain ⟨slice, here, balanced⟩ := (List.forall₂_cons.mp slots).1
  obtain ⟨-, nested, kinds⟩ := balanced rfl
  obtain rfl := here.unique whole
  exact ⟨found, _, here, nested, kinds, rfl, by decide⟩

/-- A round bracket that a square one closes is captured: what is captured is not well nested. -/
theorem crossed_capture :
    Pattern.parse "f(%b)".toList = .ok callPattern ∧
      callPattern.matchAt "f((a])".toList 0 = some ⟨⟨0, 6⟩, [⟨2, 5⟩]⟩ ∧
      Text.IsSlice "f((a])".toList ⟨2, 5⟩ "(a]".toList ∧ ¬ WellNested "(a]".toList :=
  ⟨by decide, by decide +kernel,
    ⟨"f(".toList, ")".toList, by decide, by decide, by decide⟩, by decide⟩

end Stencil
