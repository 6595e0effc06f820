import Mathlib.Data.List.Forall2
import Stencil.Proofs.Rewriting

/-!
# Replacing search after search

`replaceAll` walks over a text once. Said with searches it takes the leftmost match, writes what is in
front of it and the replacement, and goes on behind the match; behind an empty match it copies one
character first. `Replaces` says so with byte offsets, for the searches of `findAt`, and `Expands` says
element by element what a replacement stands for.

Proved here, for every pattern, replacement and text: `replaceAll_replaces`, the walk is what these
searches come to, there is no other way to go through them, the matches stand one behind the other, and
the text between them comes out once and in order.
-/

namespace Stencil

/-! ## Slices -/

namespace Text

/-- The part of a text within a span, whose ends lie between characters. -/
def IsSlice (text : Text) (span : Span) (slice : Text) : Prop :=
  ∃ before after, text = before ++ slice ++ after ∧ before.byteSize = span.start ∧
    (before ++ slice).byteSize = span.stop

variable {text slice other : Text} {start middle stop : Nat} {span : Span}

theorem isSlice_append (before slice after : Text) :
    (before ++ slice ++ after).IsSlice ⟨before.byteSize, (before ++ slice).byteSize⟩ slice :=
  ⟨before, after, rfl, rfl, rfl⟩

theorem isSlice_whole (text : Text) : text.IsSlice ⟨0, text.byteSize⟩ text :=
  ⟨[], [], by simp, rfl, rfl⟩

theorem IsSlice.le (h : text.IsSlice span slice) : span.start ≤ span.stop := by
  obtain ⟨before, after, -, start, stop⟩ := h
  rw [byteSize_append] at stop
  omega

theorem IsSlice.lt (h : text.IsSlice span slice) (hne : slice ≠ []) : span.start < span.stop := by
  obtain ⟨before, after, -, start, stop⟩ := h
  have pos := Nat.pos_of_ne_zero (mt (byteSize_eq_zero_iff slice).mp hne)
  rw [byteSize_append] at stop
  omega

theorem IsSlice.ne_nil (h : text.IsSlice span slice) (hne : span.start ≠ span.stop) :
    slice ≠ [] := by
  rintro rfl
  obtain ⟨before, after, -, start, stop⟩ := h
  rw [List.append_nil] at stop
  exact hne (start.symm.trans stop)

theorem IsSlice.unique (h : text.IsSlice span slice) (ho : text.IsSlice span other) :
    slice = other := by
  obtain ⟨before, after, rfl, start, stop⟩ := h
  obtain ⟨before', after', same, start', stop'⟩ := ho
  have same' := same
  rw [List.append_assoc, List.append_assoc] at same'
  obtain rfl := eq_of_byteSize_eq same' (start.trans start'.symm)
  exact List.append_cancel_left (eq_of_byteSize_eq same (stop.trans stop'.symm))

/-- Slices that touch form one slice. -/
theorem IsSlice.append (h : text.IsSlice ⟨start, middle⟩ slice)
    (ho : text.IsSlice ⟨middle, stop⟩ other) : text.IsSlice ⟨start, stop⟩ (slice ++ other) := by
  obtain ⟨before, after, rfl, hs, hm⟩ := h
  obtain ⟨before', after', same, hm', ht⟩ := ho
  have same' := same
  rw [List.append_assoc before'] at same'
  obtain rfl := eq_of_byteSize_eq same' (hm.trans hm'.symm)
  exact ⟨before, after', by rw [same]; simp, hs, by rw [← ht]; simp⟩

end Text

/-! ## What a replacement stands for -/

/-- A character stands for itself, the number zero for the match and any other number for the capture
of that number, counted from one; the number of no capture stands for nothing. -/
inductive Piece.Stands (whole : Text) (captures : List Text) : Piece → Text → Prop
  | char (c : Char) : Stands whole captures (.char c) [c]
  | whole : Stands whole captures (.capture 0) whole
  | capture {before after : List Text} {slice : Text} (cut : captures = before ++ slice :: after) :
      Stands whole captures (.capture (before.length + 1)) slice
  | missing {number : Nat} (beyond : captures.length < number) :
      Stands whole captures (.capture number) []

namespace Replacement

/-- The elements of a replacement stand for parts of a text, one behind the other. -/
inductive Expands (whole : Text) (captures : List Text) : Replacement → Text → Prop
  | nil : Expands whole captures [] []
  | cons {piece : Piece} {r : Replacement} {part text : Text}
      (here : piece.Stands whole captures part) (later : Expands whole captures r text) :
      Expands whole captures (piece :: r) (part ++ text)

variable {whole : Text} {captures : List Text}

theorem stands_expandPiece (piece : Piece) :
    piece.Stands whole captures (expandPiece whole captures piece) := by
  cases piece with
  | char c => exact .char c
  | capture number =>
    cases number with
    | zero => exact .whole
    | succ index =>
      by_cases there : index < captures.length
      · have cut : captures = captures.take index ++ captures[index] :: captures.drop (index + 1) :=
          by rw [← List.drop_eq_getElem_cons there, List.take_append_drop]
        have length : (captures.take index).length = index := List.length_take_of_le there.le
        have stands : (Piece.capture ((captures.take index).length + 1)).Stands whole captures _ :=
          .capture cut
        rw [length] at stands
        simpa [expandPiece, List.getElem?_eq_getElem there] using stands
      · have stands : (Piece.capture (index + 1)).Stands whole captures [] :=
          .missing (Nat.lt_succ_of_le (Nat.le_of_not_lt there))
        simpa [expandPiece, List.getElem?_eq_none (Nat.le_of_not_lt there)] using stands

/-- An element stands for one text. -/
theorem eq_expandPiece_of_stands {piece : Piece} {part : Text}
    (h : piece.Stands whole captures part) : part = expandPiece whole captures piece := by
  cases h with
  | char c => rfl
  | whole => rfl
  | capture cut => simp [expandPiece, cut]
  | missing beyond =>
    obtain ⟨index, rfl⟩ := Nat.exists_eq_succ_of_ne_zero (Nat.ne_zero_of_lt beyond)
    simp [expandPiece, List.getElem?_eq_none (Nat.le_of_lt_succ beyond)]

/-- The expansion is what the elements stand for, and nothing else is. -/
theorem expands_iff {r : Replacement} {text : Text} :
    Expands whole captures r text ↔ text = r.expand whole captures := by
  induction r generalizing text with
  | nil =>
    constructor
    · rintro ⟨⟩
      rfl
    · rintro rfl
      exact .nil
  | cons piece r ih =>
    constructor
    · rintro (_ | ⟨here, later⟩)
      rw [eq_expandPiece_of_stands here, ih.mp later]
      rfl
    · rintro rfl
      exact .cons (stands_expandPiece piece) (ih.mpr rfl)

end Replacement

/-! ## Searches one after the other -/

section Replaces

variable (p : Pattern) (r : Replacement) (text : Text)

/-- What is written up to the end of a match: the text in front of it as it is, and the replacement
with the texts of the match and of its captures. -/
def Writes (offset : Nat) (found : Match) (written : Text) : Prop :=
  ∃ gap whole captures expansion, text.IsSlice ⟨offset, found.range.start⟩ gap ∧
    text.IsSlice found.range whole ∧ List.Forall₂ text.IsSlice found.captures captures ∧
    Replacement.Expands whole captures r expansion ∧ written = gap ++ expansion

/-- The searches from an offset on find these matches and write this text. -/
inductive Replaces : Nat → List Match → Text → Prop
  /-- Without a match the rest stays as it is. -/
  | rest {offset : Nat} {tail : Text} (none : p.findAt text offset = none)
      (rest : text.IsSlice ⟨offset, text.byteSize⟩ tail) : Replaces offset [] tail
  /-- The search goes on at the end of a match. -/
  | behind {offset : Nat} {found : Match} {matches' : List Match} {written out : Text}
      (search : p.findAt text offset = some found) (writes : Writes r text offset found written)
      (ne : found.range.start ≠ found.range.stop)
      (later : Replaces found.range.stop matches' out) :
      Replaces offset (found :: matches') (written ++ out)
  /-- Behind an empty match one character is copied first. -/
  | copying {offset : Nat} {found : Match} {matches' : List Match} {written out tail : Text} {c : Char}
      (search : p.findAt text offset = some found) (writes : Writes r text offset found written)
      (empty : found.range.start = found.range.stop)
      (next : text.IsSlice ⟨found.range.stop, text.byteSize⟩ (c :: tail))
      (later : Replaces (found.range.stop + c.utf8Size) matches' out) :
      Replaces offset (found :: matches') (written ++ c :: out)
  /-- An empty match at the end of the text is the last one. -/
  | atEnd {offset : Nat} {found : Match} {written : Text}
      (search : p.findAt text offset = some found) (writes : Writes r text offset found written)
      (empty : found.range.start = found.range.stop) (ends : found.range.stop = text.byteSize) :
      Replaces offset [found] written

end Replaces

/-- The spans in front of, between and behind spans. -/
def spansAround (stop : Nat) : Nat → List Span → List Span
  | offset, [] => [⟨offset, stop⟩]
  | offset, span :: spans => ⟨offset, span.start⟩ :: spansAround stop span.stop spans

/-- Texts with other ones in between. -/
def weave : List Text → List Text → Text
  | gap :: gaps, piece :: pieces => gap ++ piece ++ weave gaps pieces
  | gaps, _ => gaps.flatten

/-- The text of the matches and the text around them make up the text from an offset on, and what the
replacement stands for in their places what is written. -/
structure Woven (r : Replacement) (text : Text) (offset : Nat) (found : List Match) (out : Text)
    (gaps wholes : List Text) (captures : List (List Text)) (expansions : List Text) : Prop where
  around : List.Forall₂ text.IsSlice (spansAround text.byteSize offset (found.map Match.range)) gaps
  inside : List.Forall₂ text.IsSlice (found.map Match.range) wholes
  captured : List.Forall₂ (List.Forall₂ text.IsSlice) (found.map Match.captures) captures
  whole : text.IsSlice ⟨offset, text.byteSize⟩ (weave gaps wholes)
  expanded : List.Forall₂ (fun (whole, captures) => Replacement.Expands whole captures r)
    (wholes.zip captures) expansions
  written : out = weave gaps expansions

/-! ## What the searches come to -/

section Facts

variable {p : Pattern} {r : Replacement} {text out : Text} {offset : Nat} {found : List Match}

theorem Writes.unique {hit : Match} {written other : Text} (h : Writes r text offset hit written)
    (ho : Writes r text offset hit other) : written = other := by
  obtain ⟨gap, whole, captures, expansion, hg, hw, hc, he, rfl⟩ := h
  obtain ⟨gap', whole', captures', expansion', hg', hw', hc', he', rfl⟩ := ho
  obtain rfl := hg.unique hg'
  obtain rfl := hw.unique hw'
  have unique : Relator.RightUnique text.IsSlice := fun _ _ _ h ho => h.unique ho
  obtain rfl := List.right_unique_forall₂' unique hc hc'
  rw [Replacement.expands_iff.mp he, Replacement.expands_iff.mp he']

/-- A match does not lie in front of the offset. -/
theorem Writes.le {hit : Match} {written : Text} (h : Writes r text offset hit written) :
    offset ≤ hit.range.start ∧ hit.range.start ≤ hit.range.stop := by
  obtain ⟨gap, whole, captures, expansion, hg, hw, -⟩ := h
  exact ⟨hg.le, hw.le⟩

/-- There is one way through the searches. -/
theorem Replaces.unique {other : List Match} {out' : Text} (h : Replaces p r text offset found out)
    (ho : Replaces p r text offset other out') : found = other ∧ out = out' := by
  induction h generalizing other out' with
  | rest none rest =>
    cases ho with
    | rest _ rest' => exact ⟨rfl, rest.unique rest'⟩
    | behind search | copying search | atEnd search => simp [none] at search
  | behind search writes ne later ih =>
    cases ho with
    | rest none => simp [none] at search
    | behind search' writes' _ later' =>
      obtain rfl := Option.some.inj (search.symm.trans search')
      obtain ⟨rfl, rfl⟩ := ih later'
      exact ⟨rfl, by rw [writes.unique writes']⟩
    | copying search' _ empty | atEnd search' _ empty =>
      obtain rfl := Option.some.inj (search.symm.trans search')
      exact absurd empty ne
  | copying search writes empty next later ih =>
    cases ho with
    | rest none => simp [none] at search
    | behind search' _ ne =>
      obtain rfl := Option.some.inj (search.symm.trans search')
      exact absurd empty ne
    | copying search' writes' _ next' later' =>
      obtain rfl := Option.some.inj (search.symm.trans search')
      obtain ⟨rfl, rfl⟩ := List.cons.inj (next.unique next')
      obtain ⟨rfl, rfl⟩ := ih later'
      exact ⟨rfl, by rw [writes.unique writes']⟩
    | atEnd search' _ _ ends =>
      obtain rfl := Option.some.inj (search.symm.trans search')
      exact absurd ends (Nat.ne_of_lt (next.lt (List.cons_ne_nil _ _)))
  | atEnd search writes empty ends =>
    cases ho with
    | rest none => simp [none] at search
    | behind search' _ ne =>
      obtain rfl := Option.some.inj (search.symm.trans search')
      exact absurd empty ne
    | copying search' _ _ next' =>
      obtain rfl := Option.some.inj (search.symm.trans search')
      exact absurd ends (Nat.ne_of_lt (next'.lt (List.cons_ne_nil _ _)))
    | atEnd search' writes' =>
      obtain rfl := Option.some.inj (search.symm.trans search')
      exact ⟨rfl, writes.unique writes'⟩

/-- The matches stand one behind the other, and each starts behind the start of the one before. -/
theorem Replaces.ordered (h : Replaces p r text offset found out) :
    (∀ hit ∈ found, offset ≤ hit.range.start) ∧
      found.Pairwise fun hit later =>
        hit.range.stop ≤ later.range.start ∧ hit.range.start < later.range.start := by
  induction h with
  | rest => exact ⟨by simp, .nil⟩
  | @behind offset hit more _ _ _ writes ne _ ih =>
    obtain ⟨from', ordered⟩ := ih
    obtain ⟨lo, hi⟩ := writes.le
    refine ⟨fun other ho => ?_, List.pairwise_cons.mpr ⟨fun other ho => ?_, ordered⟩⟩
    · rcases List.mem_cons.mp ho with rfl | ho
      · exact lo
      · have := from' other ho
        omega
    · have := from' other ho
      omega
  | @copying offset hit more _ _ _ c _ writes empty _ _ ih =>
    obtain ⟨from', ordered⟩ := ih
    obtain ⟨lo, hi⟩ := writes.le
    have pos := Text.utf8Size_pos c
    refine ⟨fun other ho => ?_, List.pairwise_cons.mpr ⟨fun other ho => ?_, ordered⟩⟩
    · rcases List.mem_cons.mp ho with rfl | ho
      · exact lo
      · have := from' other ho
        omega
    · have := from' other ho
      omega
  | atEnd _ writes =>
    refine ⟨fun other ho => ?_, by simp⟩
    obtain rfl := List.mem_singleton.mp ho
    exact writes.le.1

/-- In front of a match there is one more gap. -/
theorem Woven.cons {hit : Match} {gap whole expansion : Text} {captures : List Text}
    {later : List Match} {rest : Text} {gaps wholes expansions : List Text}
    {captured : List (List Text)}
    (h : Woven r text hit.range.stop later rest gaps wholes captured expansions)
    (hg : text.IsSlice ⟨offset, hit.range.start⟩ gap) (hw : text.IsSlice hit.range whole)
    (hc : List.Forall₂ text.IsSlice hit.captures captures)
    (he : Replacement.Expands whole captures r expansion) :
    Woven r text offset (hit :: later) (gap ++ expansion ++ rest) (gap :: gaps)
      (whole :: wholes) (captures :: captured) (expansion :: expansions) where
  around := .cons hg h.around
  inside := .cons hw h.inside
  captured := .cons hc h.captured
  whole := (hg.append hw).append h.whole
  expanded := .cons he h.expanded
  written := by rw [h.written]; rfl

theorem exists_spansAround (stop : Nat) (spans : List Span) :
    ∃ first rest, ∀ offset, spansAround stop offset spans = ⟨offset, first⟩ :: rest := by
  cases spans with
  | nil => exact ⟨stop, [], fun _ => rfl⟩
  | cons span spans => exact ⟨span.start, spansAround stop span.stop spans, fun _ => rfl⟩

theorem weave_cons (c : Char) (gap : Text) (gaps pieces : List Text) :
    weave ((c :: gap) :: gaps) pieces = c :: weave (gap :: gaps) pieces := by
  cases pieces <;> rfl

/-- A character that is copied comes to the gap behind it. -/
theorem Woven.copy {later : List Match} {rest tail : Text} {c : Char}
    {gaps wholes expansions : List Text} {captured : List (List Text)}
    (h : Woven r text (offset + c.utf8Size) later rest gaps wholes captured expansions)
    (next : text.IsSlice ⟨offset, text.byteSize⟩ (c :: tail)) :
    ∃ gaps', Woven r text offset later (c :: rest) gaps' wholes captured expansions ∧
      weave gaps' wholes = c :: weave gaps wholes := by
  have char : text.IsSlice ⟨offset, offset + c.utf8Size⟩ [c] := by
    obtain ⟨before, after, cut, start, -⟩ := next
    refine ⟨before, tail ++ after, by simpa using cut, start, ?_⟩
    simp only [Text.byteSize_append, Text.byteSize, start]
    rfl
  obtain ⟨around, inside, captured, whole, expanded, written⟩ := h
  obtain ⟨first, spans, same⟩ := exists_spansAround text.byteSize (later.map Match.range)
  rw [same] at around
  obtain ⟨gap, more, hg, hm, rfl⟩ := List.forall₂_cons_left_iff.mp around
  refine ⟨(c :: gap) :: more, ⟨?_, inside, captured, ?_, expanded, ?_⟩, weave_cons ..⟩
  · rw [same]
    exact .cons (char.append hg) hm
  · rw [weave_cons]
    exact char.append whole
  · rw [weave_cons, written]

/-- What the searches come to: all text around the matches, and the replacements. There is at most one
match more than characters. -/
theorem Replaces.woven (h : Replaces p r text offset found out) :
    ∃ gaps wholes captures expansions,
      Woven r text offset found out gaps wholes captures expansions ∧
        found.length ≤ (weave gaps wholes).length + 1 := by
  induction h with
  | rest _ rest =>
    refine ⟨[_], [], [], [], ⟨.cons rest .nil, .nil, .nil, ?_, .nil, ?_⟩, Nat.zero_le _⟩
    · simpa [weave] using rest
    · simp [weave]
  | behind _ writes ne _ ih =>
    obtain ⟨gap, whole, captures, expansion, hg, hw, hc, he, rfl⟩ := writes
    obtain ⟨gaps, wholes, captured, expansions, woven, count⟩ := ih
    refine ⟨_, _, _, _, woven.cons hg hw hc he, ?_⟩
    have pos := List.length_pos_iff.mpr (hw.ne_nil ne)
    simp only [weave, List.length_cons, List.length_append]
    omega
  | copying _ writes empty next _ ih =>
    obtain ⟨gap, whole, captures, expansion, hg, hw, hc, he, rfl⟩ := writes
    obtain ⟨gaps, wholes, captured, expansions, woven, count⟩ := ih
    obtain ⟨gaps', woven', same⟩ := woven.copy next
    refine ⟨_, _, _, _, woven'.cons hg hw hc he, ?_⟩
    simp only [weave, List.length_cons, List.length_append, same]
    omega
  | @atEnd _ hit _ _ writes empty ends =>
    obtain ⟨gap, whole, captures, expansion, hg, hw, hc, he, rfl⟩ := writes
    have nothing : text.IsSlice ⟨hit.range.stop, text.byteSize⟩ [] :=
      ⟨text, [], by simp, ends.symm, by simp⟩
    have last : Woven r text hit.range.stop [] [] [[]] [] [] [] :=
      ⟨.cons nothing .nil, .nil, .nil, by simpa [weave] using nothing, .nil, by simp [weave]⟩
    refine ⟨_, _, _, _, by simpa using last.cons hg hw hc he, ?_⟩
    simp

end Facts

/-! ## The walk -/

theorem exists_append_of_admitted {segments : List Segment} {earlier : Option Char} {text : Text}
    {slices : List Text} (h : Admitted segments earlier text slices) :
    ∃ rest, text = slices.flatten ++ rest := by
  induction segments generalizing earlier text slices with
  | nil =>
    obtain rfl : slices = [] := h
    exact ⟨text, rfl⟩
  | cons segment segments ih =>
    obtain ⟨slice, behind, more, rfl, rfl, -, later⟩ := h
    obtain ⟨rest, rfl⟩ := ih later
    exact ⟨rest, by simp⟩

namespace Pattern

variable (p : Pattern) (r : Replacement)

/-- Where the opening literal does not stand nothing matches. -/
theorem matchHere_eq_none {earlier : Option Char} {text : Text} (h : p.opensAt text = false) :
    p.matchHere earlier text = none := by
  unfold opensAt at h
  unfold matchHere
  split at h
  · next opening segments hs =>
    have absent : ¬ opening <+: text := by
      intro hp
      rw [List.isPrefixOf_iff_prefix.mpr hp] at h
      simp at h
    simp [hs, matchSlices_eq_none_of_not_prefix absent]
  · simp at h

theorem find_nil (earlier : Option Char) : p.find earlier [] = p.matchHere earlier [] := by
  rw [find]
  cases h : p.opensAt [] with
  | true => rfl
  | false => exact (p.matchHere_eq_none h).symm

/-- The leftmost match is here, or it is the leftmost one behind the next character. -/
theorem find_cons (earlier : Option Char) (c : Char) (rest : Text) :
    p.find earlier (c :: rest) =
      (p.matchHere earlier (c :: rest) <|> (p.find (some c) rest).map (Found.consBefore c)) := by
  rw [find]
  cases h : p.opensAt (c :: rest) with
  | true => rfl
  | false => rw [p.matchHere_eq_none h]; rfl

theorem eq_append_of_matchHere {earlier : Option Char} {text : Text} {found : Found}
    (h : p.matchHere earlier text = some found) :
    found.before = [] ∧ text = found.whole ++ found.after ∧
      matchSlices p.segments earlier text = some found.slices := by
  obtain ⟨slices, hm, rfl⟩ := Option.map_eq_some_iff.mp h
  have first := matchSlices_first p.segments earlier text
  rw [hm] at first
  obtain ⟨rest, rfl⟩ := exists_append_of_admitted first.1
  exact ⟨rfl, by simp [Found.whole], hm⟩

/-- A found match cuts the text. -/
theorem eq_append_of_find {earlier : Option Char} {text : Text} {found : Found}
    (h : p.find earlier text = some found) :
    text = found.before ++ (found.whole ++ found.after) := by
  induction text generalizing earlier found with
  | nil =>
    rw [find_nil] at h
    obtain ⟨before, cut, -⟩ := p.eq_append_of_matchHere h
    rw [before, List.nil_append, cut]
  | cons c rest ih =>
    rw [find_cons] at h
    cases hm : p.matchHere earlier (c :: rest) with
    | some here =>
      rw [hm] at h
      obtain rfl : here = found := by simpa using h
      obtain ⟨before, cut, -⟩ := p.eq_append_of_matchHere hm
      rw [before, List.nil_append, cut]
    | none =>
      rw [hm] at h
      obtain ⟨later, hl, rfl⟩ := Option.map_eq_some_iff.mp h
      exact congrArg (c :: ·) (ih hl)

/-- What the walk writes behind a match. -/
def replaceBehind (earlier : Option Char) : Text → Text → Text
  | [], [] => []
  | [], c :: rest => c :: p.replaceFrom r 0 (some c) rest
  | whole, after => p.replaceFrom r 0 (Text.lastOr earlier whole) after

theorem replaceBehind_of_ne_nil {whole : Text} (hne : whole ≠ []) (earlier : Option Char)
    (after : Text) : p.replaceBehind r earlier whole after =
      p.replaceFrom r 0 (Text.lastOr earlier whole) after := by
  cases whole with
  | nil => exact absurd rfl hne
  | cons c whole => rfl

/-- What the walk writes where it has come to a match. -/
def fromMatch (earlier : Option Char) (found : Found) : Text :=
  r.expand found.whole (captureSlices p.segments found.slices) ++
    p.replaceBehind r earlier found.whole found.after

theorem replaceFrom_here {earlier : Option Char} {text : Text} {found : Found}
    (h : p.matchHere earlier text = some found) :
    p.replaceFrom r 0 earlier text =
      found.before ++ p.fromMatch r (Text.lastOr earlier found.before) found := by
  obtain ⟨before, rfl, hm⟩ := p.eq_append_of_matchHere h
  rw [before]
  show _ = p.fromMatch r earlier found
  unfold fromMatch
  cases hw : found.whole with
  | nil =>
    have empty : found.slices.flatten = [] := hw
    rw [hw] at hm
    cases ha : found.after with
    | nil =>
      rw [ha] at hm
      simp only [List.append_nil] at hm ⊢
      rw [replaceFrom, hm]
      simp only [empty, replaceBehind, List.append_nil]
    | cons c rest =>
      rw [ha] at hm
      simp only [List.nil_append] at hm ⊢
      rw [replaceFrom, hm]
      simp only [empty, replaceBehind, List.length_nil]
  | cons c whole =>
    have same : found.slices.flatten = c :: whole := hw
    rw [hw] at hm
    rw [p.replaceFrom_match r same (List.cons_ne_nil _ _) hm]
    rfl

/-- The walk copies the text up to the leftmost match. -/
theorem replaceFrom_find (earlier : Option Char) (text : Text) :
    p.replaceFrom r 0 earlier text =
      match p.find earlier text with
      | none => text
      | some found =>
        found.before ++ p.fromMatch r (Text.lastOr earlier found.before) found := by
  induction text generalizing earlier with
  | nil =>
    rw [find_nil]
    cases hm : p.matchHere earlier [] with
    | some found => exact p.replaceFrom_here r hm
    | none =>
      have missing : matchSlices p.segments earlier [] = none := by simpa [matchHere] using hm
      simp [replaceFrom, missing]
  | cons c rest ih =>
    rw [find_cons]
    cases hm : p.matchHere earlier (c :: rest) with
    | some found => exact p.replaceFrom_here r hm
    | none =>
      have missing : matchSlices p.segments earlier (c :: rest) = none := by
        simpa [matchHere] using hm
      rw [replaceFrom, missing]
      simp only
      rw [ih (some c)]
      cases p.find (some c) rest with
      | none => rfl
      | some found =>
        show c :: (found.before ++ p.fromMatch r (Text.lastOr (some c) found.before) found) =
          c :: found.before ++ p.fromMatch r (Text.lastOr earlier (c :: found.before)) _
        rw [Text.lastOr_cons]
        rfl

end Pattern

/-! ## Spans of slices -/

theorem forall₂_spansFrom (before after : Text) (slices : List Text) :
    List.Forall₂ (before ++ slices.flatten ++ after).IsSlice (spansFrom before.byteSize slices)
      slices := by
  induction slices generalizing before with
  | nil => exact .nil
  | cons slice slices ih =>
    have cut : before ++ (slice :: slices).flatten ++ after =
        before ++ slice ++ (slices.flatten ++ after) := by simp
    have later := ih (before ++ slice)
    rw [Text.byteSize_append] at later
    have here := Text.isSlice_append before slice (slices.flatten ++ after)
    rw [Text.byteSize_append] at here
    refine .cons (cut ▸ here) ?_
    rw [cut, ← List.append_assoc]
    exact later

theorem forall₂_captures {text : Text} (segments : List Segment) {spans : List Span}
    {slices : List Text} (h : List.Forall₂ text.IsSlice spans slices) :
    List.Forall₂ text.IsSlice (captureSpans segments spans) (captureSlices segments slices) := by
  induction segments generalizing spans slices with
  | nil => exact .nil
  | cons segment segments ih =>
    cases h with
    | nil => exact .nil
    | cons here later =>
      cases hc : segment.isCapture with
      | true => simpa [captureSpans, captureSlices, hc] using ⟨here, ih later⟩
      | false => simpa [captureSpans, captureSlices, hc] using ih later

namespace Pattern

variable (p : Pattern) (r : Replacement)

section Place

variable {text before after : Text} (cut : text = before ++ after)

include cut

theorem findAt_byteSize : p.findAt text before.byteSize =
    (p.find before.getLast? after).map (p.toMatch before.byteSize) := by
  subst cut
  simp only [findAt, Text.splitAtByte_byteSize, Option.bind_eq_bind, Option.bind_some]
  cases p.find before.getLast? after <;> rfl

/-- What stands in front of a found match and what takes its place. -/
theorem writes_of_find {found : Found} (h : p.find before.getLast? after = some found) :
    Writes r text before.byteSize (p.toMatch before.byteSize found)
      (found.before ++ r.expand found.whole (captureSlices p.segments found.slices)) := by
  obtain rfl := p.eq_append_of_find h
  subst cut
  refine ⟨found.before, found.whole, captureSlices p.segments found.slices, _, ?_, ?_, ?_,
    Replacement.expands_iff.mpr rfl, rfl⟩
  · have gap := Text.isSlice_append before found.before (found.whole ++ found.after)
    simp only [List.append_assoc, Text.byteSize_append] at gap
    exact gap
  · have whole := Text.isSlice_append (before ++ found.before) found.whole found.after
    simp only [List.append_assoc, Text.byteSize_append, ← Nat.add_assoc] at whole
    exact whole
  · have slices := forall₂_spansFrom (before ++ found.before) found.after found.slices
    simp only [List.append_assoc, Text.byteSize_append] at slices
    exact forall₂_captures p.segments slices

/-- Where a found match lies in the text, and the offsets at which it starts and ends. -/
theorem around_find {found : Found} (h : p.find before.getLast? after = some found) :
    text = before ++ found.before ++ found.whole ++ found.after ∧
      (p.toMatch before.byteSize found).range.start = (before ++ found.before).byteSize ∧
      (p.toMatch before.byteSize found).range.stop =
        (before ++ found.before ++ found.whole).byteSize := by
  have start : (p.toMatch before.byteSize found).range.start =
      (before ++ found.before).byteSize := (Text.byteSize_append ..).symm
  refine ⟨?_, start, ?_⟩
  · rw [cut, p.eq_append_of_find h]
    simp
  · rw [Text.byteSize_append, ← start]
    rfl

/-- Behind an empty match the walk copies one character, if there is one, and goes on. -/
theorem replaces_of_empty {found : Found} (h : p.find before.getLast? after = some found)
    (hw : found.whole = []) (earlier : Option Char)
    (goesOn : ∀ c rest, found.after = c :: rest →
      ∃ later, Replaces p r text (before ++ found.before ++ [c]).byteSize later
        (p.replaceFrom r 0 (some c) rest)) :
    ∃ all, Replaces p r text before.byteSize all
      (found.before ++ r.expand found.whole (captureSlices p.segments found.slices) ++
        p.replaceBehind r earlier found.whole found.after) := by
  have search := p.findAt_byteSize cut
  rw [h] at search
  have writes := p.writes_of_find r cut h
  obtain ⟨around, start, stop⟩ := p.around_find cut h
  rw [hw, List.append_nil] at around stop
  have empty := start.trans stop.symm
  rw [hw] at writes ⊢
  cases ha : found.after with
  | nil =>
    rw [ha, List.append_nil] at around
    rw [replaceBehind, List.append_nil]
    exact ⟨_, .atEnd search writes empty (by rw [stop, around])⟩
  | cons c rest =>
    rw [ha] at around
    have next : text.IsSlice ⟨(p.toMatch before.byteSize found).range.stop, text.byteSize⟩
        (c :: rest) :=
      ⟨before ++ found.before, [], by simpa using around, stop.symm, by rw [around]⟩
    obtain ⟨later, goesOn⟩ := goesOn c rest ha
    have offset : (before ++ found.before ++ [c]).byteSize =
        (p.toMatch before.byteSize found).range.stop + c.utf8Size := by
      rw [Text.byteSize_append, stop]
      rfl
    rw [offset] at goesOn
    exact ⟨_, .copying search writes empty next goesOn⟩

/-- From any place on, the walk goes through the searches. -/
theorem replaceFrom_replaces : ∃ found, Replaces p r text before.byteSize found
    (p.replaceFrom r 0 before.getLast? after) := by
  induction hl : after.length using Nat.strong_induction_on generalizing before after with
  | _ length ih =>
    have search := p.findAt_byteSize cut
    rw [p.replaceFrom_find r before.getLast? after]
    cases hf : p.find before.getLast? after with
    | none =>
      rw [hf] at search
      exact ⟨[], .rest search ⟨before, [], by simpa using cut, rfl, by rw [cut]⟩⟩
    | some found =>
      rw [hf] at search
      obtain ⟨around, start, stop⟩ := p.around_find cut hf
      have length_eq : length = found.before.length + found.whole.length + found.after.length := by
        rw [← hl, p.eq_append_of_find hf]
        simp [Nat.add_assoc]
      simp only [fromMatch]
      rw [← List.append_assoc, Text.lastOr_getLast?]
      by_cases hw : found.whole = []
      · refine p.replaces_of_empty r cut hf hw _ fun c rest ha => ?_
        have shorter : rest.length < length := by
          rw [ha, List.length_cons] at length_eq
          omega
        have cut' : text = before ++ found.before ++ [c] ++ rest := by
          rw [hw, ha] at around
          simpa using around
        simpa only [List.getLast?_concat] using ih _ shorter cut' rfl
      · rw [p.replaceBehind_of_ne_nil r hw, Text.lastOr_getLast?]
        have pos := List.length_pos_iff.mpr hw
        obtain ⟨later, goesOn⟩ := ih found.after.length (by omega) around rfl
        rw [← stop] at goesOn
        have ne : (p.toMatch before.byteSize found).range.start ≠
            (p.toMatch before.byteSize found).range.stop := by
          have pos := mt (Text.byteSize_eq_zero_iff found.whole).mp hw
          rw [start, stop, Text.byteSize_append _ found.whole]
          omega
        exact ⟨_, .behind search (p.writes_of_find r cut hf) ne goesOn⟩

end Place

/-- The reference to the match stands for the match. -/
theorem eq_of_expands_whole {whole text : Text} {captures : List Text}
    (h : Replacement.Expands whole captures (Replacement.parse "$0".toList) text) :
    text = whole := by
  have parsed : Replacement.parse "$0".toList = [.capture 0] := by decide
  rw [parsed] at h
  obtain _ | ⟨here, ⟨⟩⟩ := h
  rw [Replacement.eq_expandPiece_of_stands here]
  exact List.append_nil whole

/-- The searches that start at the start of a text and go on behind each match, or behind the next
character when the match is empty, end, and what they write is the text with all matches replaced.
Their matches stand one behind the other, at most one more than there are characters; the text around
them comes out once and in order, with the replacements in between. With the whole match as the
replacement the text stays as it is, and so it does without a match. -/
theorem replaceAll_replaces (text : Text) :
    ∃ found, Replaces p r text 0 found (p.replaceAll r text) ∧
      (∀ other out, Replaces p r text 0 other out → found = other ∧ p.replaceAll r text = out) ∧
      (found.Pairwise fun hit later =>
        hit.range.stop ≤ later.range.start ∧ hit.range.start < later.range.start) ∧
      found.length ≤ text.length + 1 ∧
      (∃ gaps wholes captures expansions,
        Woven r text 0 found (p.replaceAll r text) gaps wholes captures expansions ∧
          text = weave gaps wholes) ∧
      p.replaceAll (Replacement.parse "$0".toList) text = text ∧
      (p.findAt text 0 = none → p.replaceAll r text = text) := by
  have all (r : Replacement) : ∃ found, Replaces p r text 0 found (p.replaceAll r text) :=
    p.replaceFrom_replaces r (show text = [] ++ text from rfl)
  have whole {r : Replacement} {found : List Match} {out : Text} {gaps wholes : List Text}
      {captures : List (List Text)} {expansions : List Text}
      (h : Woven r text 0 found out gaps wholes captures expansions) :
      text = weave gaps wholes := text.isSlice_whole.unique h.whole
  obtain ⟨found, replaces⟩ := all r
  obtain ⟨gaps, wholes, captures, expansions, woven, count⟩ := replaces.woven
  refine ⟨found, replaces, fun other out => replaces.unique, replaces.ordered.2,
    by rwa [← whole woven] at count, ⟨gaps, wholes, captures, expansions, woven, whole woven⟩, ?_, ?_⟩
  · obtain ⟨found, replaces⟩ := all (Replacement.parse "$0".toList)
    obtain ⟨gaps, wholes, captures, expansions, woven, -⟩ := replaces.woven
    have lengths : wholes.length = captures.length := by
      rw [← woven.inside.length_eq, ← woven.captured.length_eq, List.length_map, List.length_map]
    have same : (wholes.zip captures).map Prod.fst = expansions := by
      rw [← List.forall₂_eq_eq_eq, List.forall₂_map_left_iff]
      exact woven.expanded.imp fun _ _ expands => (eq_of_expands_whole expands).symm
    rw [woven.written, ← same, List.map_fst_zip (Nat.le_of_eq lengths), ← whole woven]
  · intro missing
    have only : Replaces p r text 0 [] text := .rest missing text.isSlice_whole
    exact (replaces.unique only).2

/-- Runs of blanks may be empty: there is one at every place. -/
example : (⟨[.blanks]⟩ : Pattern).replaceAll (Replacement.parse "-".toList) "a b".toList =
    "-a--b-".toList := by decide

end Pattern

end Stencil
