import Mathlib.Data.List.Induction
import Stencil.Proofs.Replacing
import Stencil.Text.Brackets

/-!
# Splitting at the top level

A text is split at the separators that stand outside strings with no bracket open. Proved here:

* `run_eq_plain_iff`: the reading character by character is outside strings exactly where the text
  can be read as plain characters, brackets and whole strings (`Outside`);
* `weave_split`: the parts with the separators between them are the text again;
* `mem_cutsFrom_split`: the text is cut at every separator at the top level and nowhere else;
* `splitTopLevel_append_cons`: so what stands behind such a separator is split for itself.
-/

namespace Stencil

/-! ## Strings and brackets -/

/-- What can stand in a string behind its mark: the mark only behind a backslash, and a backslash
only with a character behind it. -/
inductive InString (mark : Char) : Text → Prop
  | nil : InString mark []
  | char {body : Text} {c : Char} (h : InString mark body) (hb : c ≠ '\\') (hm : c ≠ mark) :
      InString mark (body ++ [c])
  | shielded {body : Text} {c : Char} (h : InString mark body) : InString mark (body ++ ['\\', c])

/-- A text whose strings are closed and that leaves `depth` brackets open. A closing bracket closes
one of any kind, if one is open. -/
inductive Outside : Nat → Text → Prop
  | start : Outside 0 []
  | opener {depth : Nat} {text : Text} {c : Char} (h : Outside depth text)
      (hc : Scan.isOpener c = true) : Outside (depth + 1) (text ++ [c])
  | closer {depth : Nat} {text : Text} {c : Char} (h : Outside depth text)
      (hc : Scan.isCloser c = true) : Outside (depth - 1) (text ++ [c])
  | char {depth : Nat} {text : Text} {c : Char} (h : Outside depth text)
      (hq : Scan.isQuote c = false) (ho : Scan.isOpener c = false) (hc : Scan.isCloser c = false) :
      Outside depth (text ++ [c])
  | string {depth : Nat} {text body : Text} {mark : Char} (h : Outside depth text)
      (hm : Scan.isQuote mark = true) (hb : InString mark body) :
      Outside depth (text ++ mark :: (body ++ [mark]))

namespace Scan

theorem run_append (scan : Scan) (a b : Text) : scan.run (a ++ b) = (scan.run a).run b :=
  List.foldl_append

theorem run_concat (scan : Scan) (text : Text) (c : Char) :
    scan.run (text ++ [c]) = (scan.run text).step c :=
  run_append scan text [c]

/-! ## Kinds of characters -/

theorem isQuote_of_isOpener {c : Char} (h : isOpener c = true) : isQuote c = false := by
  simp only [isOpener, Bool.or_eq_true, beq_iff_eq] at h
  rcases h with (rfl | rfl) | rfl <;> rfl

theorem of_isCloser {c : Char} (h : isCloser c = true) : isQuote c = false ∧ isOpener c = false := by
  simp only [isCloser, Bool.or_eq_true, beq_iff_eq] at h
  rcases h with (rfl | rfl) | rfl <;> exact ⟨rfl, rfl⟩

theorem ne_backslash_of_isQuote {c : Char} (h : isQuote c = true) : c ≠ '\\' := by
  rintro rfl
  cases h

theorem kind_cases (c : Char) : isQuote c = true ∨ isOpener c = true ∨ isCloser c = true ∨
    (isQuote c = false ∧ isOpener c = false ∧ isCloser c = false) := by
  cases isQuote c <;> cases isOpener c <;> cases isCloser c <;> simp

theorem step_of_isQuote {c : Char} (h : isQuote c = true) (depth : Nat) :
    (plain depth).step c = .quoted depth c := by
  simp [step, h]

theorem step_of_isOpener {c : Char} (h : isOpener c = true) (depth : Nat) :
    (plain depth).step c = .plain (depth + 1) := by
  simp [step, isQuote_of_isOpener h, h]

theorem step_of_isCloser {c : Char} (h : isCloser c = true) (depth : Nat) :
    (plain depth).step c = .plain (depth - 1) := by
  obtain ⟨hq, ho⟩ := of_isCloser h
  simp [step, hq, ho, h]

theorem step_of_other {c : Char} (hq : isQuote c = false) (ho : isOpener c = false)
    (hc : isCloser c = false) (depth : Nat) : (plain depth).step c = .plain depth := by
  simp [step, hq, ho, hc]

/-! ## The reading against the text -/

/-- What the text that has been read looks like when the reading stands at a place. -/
def Stands : Scan → Text → Prop
  | .plain depth, text => Outside depth text
  | .quoted depth mark, text => ∃ before body, text = before ++ mark :: body ∧
      Outside depth before ∧ isQuote mark = true ∧ InString mark body
  | .escaped depth mark, text => ∃ before body, text = before ++ mark :: (body ++ ['\\']) ∧
      Outside depth before ∧ isQuote mark = true ∧ InString mark body

theorem Stands.step {scan : Scan} {text : Text} (h : Stands scan text) (c : Char) :
    Stands (scan.step c) (text ++ [c]) := by
  cases scan with
  | plain depth =>
    rcases kind_cases c with hq | ho | hc | ⟨hq, ho, hc⟩
    · rw [step_of_isQuote hq]
      exact ⟨text, [], rfl, h, hq, .nil⟩
    · rw [step_of_isOpener ho]
      exact Outside.opener h ho
    · rw [step_of_isCloser hc]
      exact Outside.closer h hc
    · rw [step_of_other hq ho hc]
      exact Outside.char h hq ho hc
  | quoted depth mark =>
    obtain ⟨before, body, rfl, outside, hm, inside⟩ := h
    by_cases hb : c = '\\'
    · subst hb
      exact ⟨before, body, by simp, outside, hm, inside⟩
    · by_cases he : c = mark
      · subst he
        simp only [Scan.step, beq_iff_eq, hb, ↓reduceIte, List.append_assoc, List.cons_append]
        exact Outside.string outside hm inside
      · simp only [Scan.step, beq_iff_eq, hb, he, ↓reduceIte]
        exact ⟨before, body ++ [c], by simp, outside, hm, inside.char hb he⟩
  | escaped depth mark =>
    obtain ⟨before, body, rfl, outside, hm, inside⟩ := h
    exact ⟨before, body ++ ['\\', c], by simp, outside, hm, inside.shielded⟩

theorem stands_run (text : Text) : Stands (start.run text) text := by
  induction text using List.reverseRecOn with
  | nil => exact Outside.start
  | append_singleton text c ih =>
    rw [run_concat]
    exact ih.step c

/-- In a string the reading stays in the string. -/
theorem run_inString {mark : Char} {body : Text} (h : InString mark body) (depth : Nat) :
    (quoted depth mark).run body = .quoted depth mark := by
  induction h with
  | nil => rfl
  | char _ hb hm ih =>
    rw [run_concat, ih]
    simp [step, hb, hm]
  | shielded _ ih =>
    rw [run_append, ih]
    rfl

theorem run_of_outside {depth : Nat} {text : Text} (h : Outside depth text) :
    start.run text = .plain depth := by
  induction h with
  | start => rfl
  | opener _ hc ih => rw [run_concat, ih, step_of_isOpener hc]
  | closer _ hc ih => rw [run_concat, ih, step_of_isCloser hc]
  | char _ hq ho hc ih => rw [run_concat, ih, step_of_other hq ho hc]
  | @string depth text body mark _ hm hb ih =>
    have closed : (quoted depth mark).step mark = .plain depth := by
      simp [step, ne_backslash_of_isQuote hm]
    calc start.run (text ++ mark :: (body ++ [mark]))
        = ((plain depth).step mark).run (body ++ [mark]) := by rw [run_append, ih]; rfl
      _ = ((quoted depth mark).run body).step mark := by rw [step_of_isQuote hm, run_concat]
      _ = .plain depth := by rw [run_inString hb, closed]

/-- The reading is outside strings with so many brackets open exactly when the text reads so. -/
theorem run_eq_plain_iff {depth : Nat} {text : Text} :
    start.run text = .plain depth ↔ Outside depth text := by
  refine ⟨fun h => ?_, run_of_outside⟩
  have stands := stands_run text
  rwa [h] at stands

end Scan

/-! ## Separators -/

/-- A listed character that is not taken for a quotation mark or an opening bracket. -/
structure IsSeparator (separators : Text) (c : Char) : Prop where
  listed : c ∈ separators
  notQuote : Scan.isQuote c = false
  notOpener : Scan.isOpener c = false

theorem Scan.separates_iff {separators : Text} {scan : Scan} {c : Char} :
    scan.separates separators c = true ↔ scan = .plain 0 ∧ IsSeparator separators c := by
  simp only [Scan.separates, Bool.and_eq_true, beq_iff_eq, Bool.not_eq_true', List.contains_iff_mem]
  constructor
  · rintro ⟨⟨⟨here, notQuote⟩, notOpener⟩, listed⟩
    exact ⟨here, listed, notQuote, notOpener⟩
  · rintro ⟨here, listed, notQuote, notOpener⟩
    exact ⟨⟨⟨here, notQuote⟩, notOpener⟩, listed⟩

/-- A separator leaves the reading where it is, at the top level. -/
theorem Scan.step_separator {separators : Text} {scan : Scan} {c : Char}
    (h : scan.separates separators c = true) : scan.step c = .start := by
  obtain ⟨rfl, hs⟩ := separates_iff.mp h
  simp [Scan.step, hs.notQuote, hs.notOpener]

/-! ## Parts -/

theorem Text.exists_consFirst (c : Char) {parts : List Text} (h : parts ≠ []) :
    ∃ part more, parts = part :: more ∧ Text.consFirst c parts = (c :: part) :: more := by
  obtain ⟨part, more, rfl⟩ := List.exists_cons_of_ne_nil h
  exact ⟨part, more, rfl, rfl⟩

theorem Text.length_consFirst (c : Char) {parts : List Text} (h : parts ≠ []) :
    (Text.consFirst c parts).length = parts.length := by
  obtain ⟨part, more, rfl, hc⟩ := Text.exists_consFirst c h
  rw [hc]
  rfl

/-- The places of the separators, counted in characters, when the first part starts at a place. -/
def cutsFrom (place : Nat) : List Text → List Nat
  | part :: next :: parts =>
    (place + part.length) :: cutsFrom (place + part.length + 1) (next :: parts)
  | _ => []

theorem cutsFrom_nil_cons (place : Nat) {parts : List Text} (h : parts ≠ []) :
    cutsFrom place ([] :: parts) = place :: cutsFrom (place + 1) parts := by
  obtain ⟨part, more, rfl⟩ := List.exists_cons_of_ne_nil h
  rfl

theorem cutsFrom_consFirst (place : Nat) (c : Char) {parts : List Text} (h : parts ≠ []) :
    cutsFrom place (Text.consFirst c parts) = cutsFrom (place + 1) parts := by
  obtain ⟨part, more, rfl, hc⟩ := Text.exists_consFirst c h
  rw [hc]
  cases more with
  | nil => rfl
  | cons next more =>
    have same : place + (c :: part).length = place + 1 + part.length := by
      rw [List.length_cons]
      omega
    rw [cutsFrom, cutsFrom, same]

namespace Scan

variable (separators : Text)

theorem split_ne_nil (scan : Scan) (text : Text) : split separators scan text ≠ [] := by
  cases text with
  | nil => simp [split]
  | cons c rest =>
    rw [split]
    split
    · simp
    · cases split separators (scan.step c) rest <;> simp [Text.consFirst]

/-- The parts with the separators between them are the text. -/
theorem weave_split (scan : Scan) (text : Text) :
    ∃ marks : Text, (∀ c ∈ marks, c ∈ separators) ∧
      marks.length + 1 = (split separators scan text).length ∧
      weave (split separators scan text) (marks.map fun c => [c]) = text := by
  induction text generalizing scan with
  | nil => exact ⟨[], by simp, rfl, rfl⟩
  | cons c rest ih =>
    obtain ⟨marks, listed, count, woven⟩ := ih (scan.step c)
    rw [split]
    split
    · next hs =>
      have here := (separates_iff.mp hs).2.listed
      refine ⟨c :: marks, List.forall_mem_cons.mpr ⟨here, listed⟩, by simp [← count], ?_⟩
      rw [List.map_cons, weave, woven]
      rfl
    · obtain ⟨part, more, hp, hc⟩ :=
        Text.exists_consFirst c (split_ne_nil separators (scan.step c) rest)
      rw [hp] at count woven
      rw [hc]
      refine ⟨marks, listed, count, ?_⟩
      rw [← woven]
      cases marks with
      | nil => rfl
      | cons mark marks => rfl

/-- One part is the text itself. -/
theorem split_eq_singleton {scan : Scan} {text : Text}
    (h : (split separators scan text).length = 1) : split separators scan text = [text] := by
  obtain ⟨marks, -, count, woven⟩ := weave_split separators scan text
  obtain ⟨part, hp⟩ := List.length_eq_one_iff.mp h
  obtain rfl : marks = [] := List.eq_nil_of_length_eq_zero (by omega)
  rw [hp] at woven ⊢
  rw [← woven]
  simp [weave]

/-- The text is cut where a separator stands at the top level, and nowhere else. -/
theorem mem_cutsFrom_split (scan : Scan) (text : Text) (start place : Nat) :
    place ∈ cutsFrom start (split separators scan text) ↔
      ∃ before c after, text = before ++ c :: after ∧ start + before.length = place ∧
        (scan.run before).separates separators c = true := by
  induction text generalizing scan start with
  | nil => simp [split, cutsFrom]
  | cons d rest ih =>
    -- a cut is made at the first character or behind it
    have cases_first : (∃ before c after, d :: rest = before ++ c :: after ∧
          start + before.length = place ∧ (scan.run before).separates separators c = true) ↔
        (start = place ∧ scan.separates separators d = true) ∨
          place ∈ cutsFrom (start + 1) (split separators (scan.step d) rest) := by
      rw [ih]
      constructor
      · rintro ⟨before, c, after, ht, hp, hs⟩
        cases before with
        | nil =>
          obtain ⟨rfl, -⟩ := List.cons.inj ht
          exact Or.inl ⟨hp, hs⟩
        | cons e before =>
          obtain ⟨rfl, rfl⟩ := List.cons.inj ht
          rw [List.length_cons] at hp
          exact Or.inr ⟨before, c, after, rfl, by omega, hs⟩
      · rintro (⟨rfl, hs⟩ | ⟨before, c, after, rfl, rfl, hs⟩)
        · exact ⟨[], d, rest, rfl, rfl, hs⟩
        · refine ⟨d :: before, c, after, rfl, ?_, hs⟩
          rw [List.length_cons]
          omega
    have parts := split_ne_nil separators (scan.step d) rest
    rw [cases_first, split]
    cases hs : scan.separates separators d with
    | true => simp [cutsFrom_nil_cons start parts, eq_comm]
    | false => simp [cutsFrom_consFirst start d parts]

/-- What stands behind a separator at the top level is split for itself. -/
theorem split_append_cons {scan : Scan} {a : Text} {s : Char}
    (h : (scan.run a).separates separators s = true) (b : Text) :
    split separators scan (a ++ s :: b) =
      split separators scan a ++ split separators .start b := by
  induction a generalizing scan with
  | nil =>
    have here : scan.separates separators s = true := h
    show split separators scan (s :: b) = [] :: split separators .start b
    rw [split, if_pos here, step_separator here]
  | cons c a ih =>
    have rest := ih (show ((scan.step c).run a).separates separators s = true from h)
    rw [List.cons_append, split, split, rest]
    split
    · rfl
    · obtain ⟨part, more, hp, hc⟩ :=
        Text.exists_consFirst c (split_ne_nil separators (scan.step c) a)
      rw [hc, hp]
      rfl

end Scan

/-- The parts of a text with separators between them are the text again. It is cut at a character
exactly when that is a separator and the text before it has no string and no bracket open. What
stands before such a separator and what stands behind it are split each for itself. -/
theorem splitTopLevel_cuts (separators text : Text) :
    (∃ marks : Text, (∀ c ∈ marks, c ∈ separators) ∧
        marks.length + 1 = (Text.splitTopLevel separators text).length ∧
        weave (Text.splitTopLevel separators text) (marks.map fun c => [c]) = text) ∧
      (∀ place, place ∈ cutsFrom 0 (Text.splitTopLevel separators text) ↔
        ∃ before c after, text = before ++ c :: after ∧ before.length = place ∧
          IsSeparator separators c ∧ Outside 0 before) ∧
      ∀ a s b, Outside 0 a → IsSeparator separators s →
        Text.splitTopLevel separators (a ++ s :: b) =
          Text.splitTopLevel separators a ++ Text.splitTopLevel separators b := by
  have separates {before : Text} {c : Char} :
      (Scan.start.run before).separates separators c = true ↔
        IsSeparator separators c ∧ Outside 0 before := by
    rw [Scan.separates_iff, Scan.run_eq_plain_iff, and_comm]
  refine ⟨Scan.weave_split separators .start text, fun place => ?_, fun a s b outside hs => ?_⟩
  · simp only [Text.splitTopLevel, Scan.mem_cutsFrom_split, separates, Nat.zero_add]
  · exact Scan.split_append_cons separators (separates.mpr ⟨hs, outside⟩) b

/-- A call with a shielded mark in a string, a parenthesis that closes nothing, and a comma in
brackets of different kinds. -/
theorem splitTopLevel_cuts_call :
    let a := "f('x\\')', y)".toList
    let b := " [g, h".toList ++ '}' :: ", k".toList
    Outside 0 a ∧ IsSeparator [',', ')'] ')' ∧
      Text.splitTopLevel [',', ')'] (a ++ ')' :: b) =
        Text.splitTopLevel [',', ')'] a ++ Text.splitTopLevel [',', ')'] b ∧
      Text.splitTopLevel [',', ')'] a = [a] ∧
      Text.splitTopLevel [',', ')'] b = [" [g, h".toList ++ ['}'], " k".toList] := by
  intro a b
  have outside : Outside 0 a := Scan.run_eq_plain_iff.mp (by decide)
  have separator : IsSeparator [',', ')'] ')' := ⟨by decide, by decide, by decide⟩
  obtain ⟨-, -, compositional⟩ := splitTopLevel_cuts [',', ')'] a
  exact ⟨outside, separator, compositional a ')' b outside separator, by decide, by decide⟩

end Stencil
