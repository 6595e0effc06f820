import Stencil.Proofs.PatternSource
import Stencil.Rule

/-!
# Matches of a rule

What a rule cuts out of a text while it is applied: the matches, their captures, and the captures that
its replacement asks for. Proved here, for every rule and text: `Rule.matches_within`.

* `within_of_matchAt`: the ends of a match and of its captures lie between characters of the text, the
  captures lie one behind the other inside the match, and there is one for each slot.
* `mem_parse_of_refersTo`: each reference that is written in the source form of a replacement is read
  as one, so a rule that is accepted has a capture for it (`Rule.le_captureCount_of_mem`).
* `Rule.compile_error_of_refersTo`: a reference that no number of 64 bits can hold is not accepted.
-/

namespace Stencil

/-! ## Spans one behind the other -/

theorem spansFrom_bounds {start : Nat} {slices : List Text} {span : Span}
    (h : span ∈ spansFrom start slices) :
    start ≤ span.start ∧ span.start ≤ span.stop ∧
      span.stop ≤ start + Text.byteSize slices.flatten := by
  induction slices generalizing start with
  | nil => simp [spansFrom] at h
  | cons slice slices ih =>
    simp only [List.flatten_cons, Text.byteSize_append]
    rcases List.mem_cons.mp h with rfl | h
    · refine ⟨Nat.le_refl _, Nat.le_add_right _ _, ?_⟩
      rw [← Nat.add_assoc]
      exact Nat.le_add_right _ _
    · obtain ⟨lo, mid, hi⟩ := ih h
      exact ⟨by omega, mid, by omega⟩

theorem spansFrom_apart (start : Nat) (slices : List Text) :
    (spansFrom start slices).Pairwise fun span later => span.stop ≤ later.start := by
  induction slices generalizing start with
  | nil => exact .nil
  | cons slice slices ih =>
    refine List.pairwise_cons.mpr ⟨fun later h => ?_, ih _⟩
    exact (spansFrom_bounds h).1

theorem captureSpans_sublist (segments : List Segment) (spans : List Span) :
    (captureSpans segments spans).Sublist spans := by
  induction segments generalizing spans with
  | nil => exact List.nil_sublist _
  | cons segment segments ih =>
    cases spans with
    | nil => exact List.nil_sublist _
    | cons span spans =>
      cases h : segment.isCapture with
      | true => simpa [captureSpans, h] using ih spans
      | false => simpa [captureSpans, h] using (ih spans).cons span

theorem Text.IsSlice.boundaries {text slice : Text} {span : Span} (h : text.IsSlice span slice) :
    text.IsBoundary span.start ∧ text.IsBoundary span.stop := by
  obtain ⟨before, after, rfl, start, stop⟩ := h
  exact ⟨⟨before, slice ++ after, by simp, start⟩, ⟨before ++ slice, after, rfl, stop⟩⟩

/-! ## Matches inside a text -/

/-- The ends of a match and of its captures lie between characters of the text. The captures lie inside
the match, one behind the other, one for each slot of the pattern. -/
structure Match.Within (hit : Match) (text : Text) (p : Pattern) : Prop where
  start : text.IsBoundary hit.range.start
  stop : text.IsBoundary hit.range.stop
  le : hit.range.start ≤ hit.range.stop
  boundaries : ∀ span ∈ hit.captures, text.IsBoundary span.start ∧ text.IsBoundary span.stop
  inside : ∀ span ∈ hit.captures,
    hit.range.start ≤ span.start ∧ span.start ≤ span.stop ∧ span.stop ≤ hit.range.stop
  apart : hit.captures.Pairwise fun span later => span.stop ≤ later.start
  count : hit.captures.length = p.captureCount

theorem boundaries_of_forall₂ {text : Text} {spans : List Span} {slices : List Text}
    (h : List.Forall₂ text.IsSlice spans slices) :
    ∀ span ∈ spans, text.IsBoundary span.start ∧ text.IsBoundary span.stop := by
  induction h with
  | nil => simp
  | cons here _ ih => exact List.forall_mem_cons.mpr ⟨here.boundaries, ih⟩

namespace Pattern

variable {p : Pattern} {r : Replacement} {text out : Text} {hit : Match}

/-- A match is a list of admitted slices, told by offsets. -/
theorem slices_of_matchAt {place : Nat} (h : p.matchAt text place = some hit) :
    ∃ (before after : Text) (slices : List Text), text = before ++ slices.flatten ++ after ∧
      Admitted p.segments before.getLast? (slices.flatten ++ after) slices ∧
      hit = ⟨⟨before.byteSize, (before ++ slices.flatten).byteSize⟩,
        captureSpans p.segments (spansFrom before.byteSize slices)⟩ := by
  cases hs : text.splitAtByte place with
  | none => simp [matchAt, hs] at h
  | some parts =>
    obtain ⟨before, after⟩ := parts
    obtain ⟨rfl, rfl⟩ := Text.eq_of_splitAtByte hs
    rw [matchAt_byteSize] at h
    obtain ⟨found, hm, rfl⟩ := Option.map_eq_some_iff.mp h
    obtain ⟨front, rfl, slices⟩ := p.eq_append_of_matchHere hm
    have first := matchSlices_first p.segments before.getLast? (found.whole ++ found.after)
    rw [slices] at first
    refine ⟨before, found.after, found.slices, by simp [Found.whole], first.1, ?_⟩
    simp [toMatch, front, Text.byteSize, Text.byteSize_append, Found.whole]

theorem within_of_matchAt {place : Nat} (h : p.matchAt text place = some hit) :
    hit.Within text p := by
  obtain ⟨before, after, slices, rfl, admitted, rfl⟩ := slices_of_matchAt h
  have range := (Text.isSlice_append before slices.flatten after).boundaries
  have spans := forall₂_captures p.segments (forall₂_spansFrom before after slices)
  have sublist := captureSpans_sublist p.segments (spansFrom before.byteSize slices)
  refine ⟨range.1, range.2, ?_, boundaries_of_forall₂ spans, fun span h => ?_, ?_, ?_⟩
  · rw [Text.byteSize_append]
    exact Nat.le_add_right _ _
  · rw [Text.byteSize_append]
    exact spansFrom_bounds (sublist.subset h)
  · exact (spansFrom_apart _ _).sublist sublist
  · exact captureSpans_length _ admitted

theorem within_of_findAt {offset : Nat} (h : p.findAt text offset = some hit) :
    hit.Within text p := by
  obtain ⟨place, leftmost⟩ := p.exists_leftmost_of_findAt h
  exact within_of_matchAt leftmost.here

end Pattern

/-- The matches that a walk through the searches comes to are found by searches. -/
theorem Replaces.exists_search {p : Pattern} {r : Replacement} {text out : Text} {offset : Nat}
    {found : List Match} (h : Replaces p r text offset found out) :
    ∀ hit ∈ found, ∃ offset, p.findAt text offset = some hit := by
  induction h with
  | rest => simp
  | behind search _ _ _ ih => exact List.forall_mem_cons.mpr ⟨⟨_, search⟩, ih⟩
  | copying search _ _ _ _ ih => exact List.forall_mem_cons.mpr ⟨⟨_, search⟩, ih⟩
  | atEnd search => exact List.forall_mem_cons.mpr ⟨⟨_, search⟩, by simp⟩

/-! ## References -/

/-- The source form of a replacement holds a dollar sign with these digits behind it, and no further
one. -/
def RefersTo (source digits : Text) : Prop :=
  ∃ before after, source = before ++ '$' :: (digits ++ after) ∧ digits ≠ [] ∧
    (∀ c ∈ digits, Text.isDigit c = true) ∧ ∀ c, after.head? = some c → Text.isDigit c = false

namespace Replacement

def indexOf (digits : Text) : Nat := min (Text.decimal digits) maxIndex

/-- Reading a character writes something and comes to another state. -/
theorem exists_readFrom_cons (state : Reading) (c : Char) :
    ∃ (front : Replacement) (next : Reading), ∀ rest,
      readFrom state (c :: rest) = front ++ readFrom next rest := by
  have plain : ∃ (front : Replacement) (next : Reading), ∀ rest,
      readPlain (readFrom · rest) c = front ++ readFrom next rest := by
    by_cases hc : c = '$'
    · exact ⟨[], .dollar, fun rest => by simp [readPlain, hc]⟩
    · exact ⟨[.char c], .text, fun rest => by simp [readPlain, hc]⟩
  obtain ⟨front, next, hp⟩ := plain
  cases state with
  | text => exact ⟨front, next, fun rest => by rw [readFrom, hp]⟩
  | dollar =>
    cases hd : Text.isDigit c with
    | true => exact ⟨[], .reference (Text.digitValue c), fun rest => by simp [readFrom, hd]⟩
    | false => exact ⟨.char '$' :: front, next, fun rest => by simp [readFrom, hd, hp]⟩
  | reference number =>
    cases hd : Text.isDigit c with
    | true =>
      exact ⟨[], .reference (10 * number + Text.digitValue c), fun rest => by simp [readFrom, hd]⟩
    | false =>
      exact ⟨.capture (min number maxIndex) :: front, next, fun rest => by simp [readFrom, hd, hp]⟩

theorem mem_readFrom_append {piece : Piece} {rest : Text}
    (h : ∀ state, piece ∈ readFrom state rest) (before : Text) (state : Reading) :
    piece ∈ readFrom state (before ++ rest) := by
  induction before generalizing state with
  | nil => exact h state
  | cons c before ih =>
    obtain ⟨front, next, hr⟩ := exists_readFrom_cons state c
    rw [List.cons_append, hr]
    exact List.mem_append_right _ (ih next)

/-- All digits behind a dollar sign are read. -/
theorem mem_readFrom_digits {digits after : Text} (hd : ∀ c ∈ digits, Text.isDigit c = true)
    (ha : ∀ c, after.head? = some c → Text.isDigit c = false) (number : Nat) :
    .capture (min (digits.foldl (fun n c => 10 * n + Text.digitValue c) number) maxIndex) ∈
      readFrom (.reference number) (digits ++ after) := by
  induction digits generalizing number with
  | nil =>
    cases after with
    | nil => simp [readFrom]
    | cons c after => simp [readFrom, ha c rfl]
  | cons d digits ih =>
    obtain ⟨digit, more⟩ := List.forall_mem_cons.mp hd
    simpa [readFrom, digit] using ih more (10 * number + Text.digitValue d)

/-- What is written as a reference is read as one, whatever stands before it. -/
theorem mem_parse_of_refersTo {source digits : Text} (h : RefersTo source digits) :
    .capture (indexOf digits) ∈ parse source := by
  obtain ⟨before, after, rfl, ne, hd, ha⟩ := h
  obtain ⟨d, digits, rfl⟩ := List.exists_cons_of_ne_nil ne
  obtain ⟨digit, more⟩ := List.forall_mem_cons.mp hd
  have sign : Text.isDigit '$' = false := by decide
  refine mem_readFrom_append (fun state => ?_) before .text
  have behind : .capture (indexOf (d :: digits)) ∈
      readFrom (.reference (Text.digitValue d)) (digits ++ after) := by
    simpa [indexOf, Text.decimal] using mem_readFrom_digits more ha (Text.digitValue d)
  cases state <;> simp [readFrom, readPlain, sign, digit, behind]

theorem le_highest {r : Replacement} {index : Nat} (h : .capture index ∈ r) :
    index ≤ r.highest := by
  induction r with
  | nil => simp at h
  | cons piece r ih =>
    rcases List.mem_cons.mp h with rfl | h
    · exact Nat.le_max_left _ _
    · refine (ih h).trans ?_
      cases piece with
      | char c => exact Nat.le_refl _
      | capture other => exact Nat.le_max_right _ _

end Replacement

/-! ## Rules that are accepted -/

theorem length_le_byteSize (text : Text) : text.length ≤ text.byteSize := by
  induction text with
  | nil => exact Nat.le_refl _
  | cons c text ih =>
    have := Text.utf8Size_pos c
    rw [List.length_cons, Text.byteSize]
    omega

theorem length_consChar_le (c : Char) (segments : List Segment) :
    (Segment.consChar c segments).length ≤ segments.length + 1 := by
  unfold Segment.consChar
  split <;> simp

/-- A pattern has no more segments than its source form has characters. -/
theorem length_read_le {source : Text} {segments : List Segment}
    (h : Pattern.read source = .ok segments) : segments.length ≤ source.length := by
  refine Pattern.read_induction (p := fun source segments => segments.length ≤ source.length)
    (Nat.le_refl _) ?_ ?_ h
  · intro c rest segments ih
    have added := length_consChar_le c segments
    have printed : 1 ≤ (Segment.printChar c).length := by
      unfold Segment.printChar
      split <;> simp
    rw [List.length_append]
    omega
  · intro letter rest segment segments _ ih
    simp only [List.length_cons]
    omega

namespace Rule

theorem compile_ok {rule : Rule} {compiled : Compiled} (h : rule.compile = .ok compiled) :
    Pattern.parse rule.pattern = .ok compiled.pattern ∧
      Replacement.parse rule.replacement = compiled.replacement := by
  unfold compile at h
  split at h
  · cases h
  · next pattern hp =>
    split at h
    · cases h
      exact ⟨hp, rfl⟩
    · cases h

/-- A pattern has fewer captures than there are bytes in its source form. -/
theorem captureCount_le {source : Text} {p : Pattern} (h : Pattern.parse source = .ok p) :
    p.captureCount ≤ source.byteSize := by
  have segments : Pattern.read source = .ok p.segments := (Pattern.parse_eq_ok_iff.mp h).2
  calc p.captureCount ≤ p.segments.length := List.countP_le_length
    _ ≤ source.length := length_read_le segments
    _ ≤ source.byteSize := length_le_byteSize source

/-- The captures that a replacement asks for are there. -/
theorem le_captureCount_of_mem (compiled : Compiled) {index : Nat}
    (h : .capture index ∈ compiled.replacement) : index ≤ compiled.pattern.captureCount :=
  (Replacement.le_highest h).trans compiled.highest_le

/-- A number too big for 64 bits asks for a capture that no pattern has whose source form has a
size of 63 bits. -/
theorem compile_error_of_refersTo {rule : Rule} {digits : Text}
    (h : RefersTo rule.replacement digits) (big : Number.twoTo 64 ≤ Text.decimal digits)
    (fits : rule.pattern.byteSize < Number.twoTo 63) :
    ∃ malformed, rule.compile = .error malformed := by
  cases hc : rule.compile with
  | error malformed => exact ⟨malformed, rfl⟩
  | ok compiled =>
    obtain ⟨pattern, replacement⟩ := compile_ok hc
    have read := Replacement.mem_parse_of_refersTo h
    rw [replacement] at read
    have le := (le_captureCount_of_mem compiled read).trans (captureCount_le pattern)
    have powers : Number.twoTo 63 ≤ Replacement.maxIndex := by decide
    have greatest : Replacement.indexOf digits = Replacement.maxIndex :=
      Nat.min_eq_right (by unfold Replacement.maxIndex; omega)
    omega

/-- While a rule that is accepted is applied to a text, no search cuts the text at a bad offset. Every
match and every capture has its ends between characters of the text, the captures lie inside the match,
in order and apart, one for each slot; and each capture that the replacement asks for is one of them.
Each reference in the source form of the replacement counts, and a rule with one that 64 bits cannot
hold is not accepted. -/
theorem matches_within (rule : Rule) :
    (∀ compiled, rule.compile = .ok compiled → ∀ text : Text,
      (∀ offset, text.IsBoundary offset →
        compiled.pattern.findByOffset text offset = .ok (compiled.pattern.findAt text offset)) ∧
      (∃ found, Replaces compiled.pattern compiled.replacement text 0 found (compiled.apply text)) ∧
      ∀ found out, Replaces compiled.pattern compiled.replacement text 0 found out →
        ∀ hit ∈ found, hit.Within text compiled.pattern ∧
          ∀ index, .capture (index + 1) ∈ compiled.replacement →
            ∃ span, hit.captures[index]? = some span) ∧
    ∀ digits, RefersTo rule.replacement digits →
      (∀ compiled, rule.compile = .ok compiled →
        .capture (Replacement.indexOf digits) ∈ compiled.replacement) ∧
      (Number.twoTo 64 ≤ Text.decimal digits → rule.pattern.byteSize < Number.twoTo 63 →
        ∃ malformed, rule.compile = .error malformed) := by
  refine ⟨fun compiled _ text => ⟨?_, ?_, ?_⟩, fun digits refers => ⟨?_, ?_⟩⟩
  · intro offset boundary
    exact compiled.pattern.findByOffset_eq_findAt boundary
  · exact compiled.pattern.replaceFrom_replaces compiled.replacement (List.nil_append text).symm
  · intro found out replaces hit hmem
    obtain ⟨offset, search⟩ := replaces.exists_search hit hmem
    have within := Pattern.within_of_findAt search
    refine ⟨within, fun index asked => ?_⟩
    have le := le_captureCount_of_mem compiled asked
    exact ⟨_, List.getElem?_eq_getElem (by rw [within.count]; omega)⟩
  · intro compiled accepted
    rw [← (compile_ok accepted).2]
    exact Replacement.mem_parse_of_refersTo refers
  · intro big fits
    exact compile_error_of_refersTo refers big fits

/-- A rule that uses its capture twice, once with a zero in front of the number, and a number beyond 64
bits. -/
theorem matches_within_twice :
    let pattern : Text := "@twice%s(%b)".toList
    let text : Text := "é@twice (ü) @twice((x))".toList
    (∃ compiled, Rule.compile ⟨pattern, "$1=$01".toList⟩ = .ok compiled ∧
      RefersTo "$1=$01".toList "01".toList ∧ .capture 1 ∈ compiled.replacement ∧
      compiled.apply text = "éü=ü (x)=(x)".toList ∧
      ∃ found, Replaces compiled.pattern compiled.replacement text 0 found (compiled.apply text) ∧
        ∀ hit ∈ found, hit.Within text compiled.pattern ∧ ∃ span, hit.captures[0]? = some span) ∧
    RefersTo "$18446744073709551616".toList "18446744073709551616".toList ∧
      Number.twoTo 64 ≤ Text.decimal "18446744073709551616".toList ∧
      pattern.byteSize < Number.twoTo 63 ∧
      ∃ malformed, Rule.compile ⟨pattern, "$18446744073709551616".toList⟩ = .error malformed := by
  intro pattern text
  have padded : RefersTo "$1=$01".toList "01".toList :=
    ⟨"$1=".toList, [], rfl, by decide, List.all_eq_true.mp (by decide), by simp⟩
  have long : RefersTo "$18446744073709551616".toList "18446744073709551616".toList :=
    ⟨[], [], rfl, by decide, List.all_eq_true.mp (by decide), by simp⟩
  have big : Number.twoTo 64 ≤ Text.decimal "18446744073709551616".toList := by decide +kernel
  have fits : pattern.byteSize < Number.twoTo 63 := by decide +kernel
  refine ⟨?_, long, big, fits, ((matches_within ⟨pattern, _⟩).2 _ long).2 big fits⟩
  obtain ⟨accepted, refers⟩ := matches_within ⟨pattern, "$1=$01".toList⟩
  refine ⟨⟨⟨[.literal "@twice".toList, .blanks, .literal "(".toList, .capture .balanced,
    .literal ")".toList]⟩, [.capture 1, .char '=', .capture 1], by decide⟩, rfl, padded, ?_, ?_, ?_⟩
  · exact (refers _ padded).1 _ rfl
  · decide +kernel
  · obtain ⟨-, ⟨found, replaces⟩, within⟩ := accepted _ rfl text
    refine ⟨found, replaces, fun hit hmem => ?_⟩
    obtain ⟨inside, captures⟩ := within found _ replaces hit hmem
    exact ⟨inside, captures 0 (by decide)⟩

end Rule

end Stencil
