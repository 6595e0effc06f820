import Stencil.Proofs.Replacing

/-!
# Matching by byte offsets

`matchAt` cuts a text once and then works on what is left of it. The same search can be done on the
whole text with byte offsets only: it computes offsets from the lengths of runs, from the end of the
line, by stepping from byte to byte and with the reader of brackets, and cuts the text anew at each. A
cut fails (`BadOffset`) where the offset lies beyond the text or inside a character.

* `Segment.stops` lists the offsets behind the slices that a segment offers.
* `matchFrom` tries segments at an offset. It writes captures down before it goes on and takes them
  back when that leads nowhere.

Proved here, for every pattern and text: `matchByOffset_eq`, from a place between characters no cut
fails, and the answer is that of `matchAt`. `Segment.Ends` says which offsets a segment has to offer
and in which order, `tryStops_eq` that of the captures those of the match are left.
-/

namespace Stencil

/-! ## Cutting at offsets -/

/-- A text cannot be cut here: the offset lies beyond its end or inside a character. -/
structure BadOffset where
  offset : Nat
  deriving DecidableEq, Repr

namespace Text

def cutAt (text : Text) (offset : Nat) : Except BadOffset (Text × Text) :=
  match text.splitAtByte offset with
  | some parts => .ok parts
  | none => .error ⟨offset⟩

def sliceFrom (text : Text) (start : Nat) : Except BadOffset Text :=
  (text.cutAt start).map Prod.snd

def sliceTo (text : Text) (stop : Nat) : Except BadOffset Text := (text.cutAt stop).map Prod.fst

def sliceBetween (text : Text) (start stop : Nat) : Except BadOffset Text := do
  let before ← text.sliceTo stop
  before.sliceFrom start

def runSize (p : Char → Bool) (text : Text) : Nat := byteSize (text.takeWhile p)

def hasCut (text : Text) (offset : Nat) : Bool := (text.splitAtByte offset).isSome

/-- The offsets from one to another at which the text can be cut. -/
def cutsBetween (text : Text) (start stop : Nat) : List Nat :=
  (List.range' start (stop + 1 - start)).filter text.hasCut

end Text

/-! ## The search at an offset -/

/-- The ends of balanced slices, when the reading of brackets stands at an offset. -/
def balancedStops : Scan → Nat → Text → List Nat
  | _, _, [] => []
  | scan, offset, c :: rest =>
    if scan.stray c then []
    else
      let later := balancedStops (scan.step c) (offset + c.utf8Size) rest
      if scan.step c == .plain 0 then (offset + c.utf8Size) :: later else later

/-- The offsets behind the slices that a segment offers at an offset, in the order in which they are
tried. -/
def Segment.stops (text : Text) (start : Nat) : Segment → Except BadOffset (List Nat)
  | .literal mark => do
    let after ← text.sliceFrom start
    return if mark.isPrefixOf after then [start + mark.byteSize] else []
  | .lineStart =>
    if start = 0 then .ok [start]
    else do
      let before ← text.sliceTo start
      return if before.getLast? = some '\n' then [start] else []
  | .blanks => do
    let after ← text.sliceFrom start
    return (text.cutsBetween start (start + Text.runSize Text.isBlank after)).reverse
  | .lineBreaks => do
    let after ← text.sliceFrom start
    return (text.cutsBetween (start + 1) (start + Text.runSize Text.isBreak after)).reverse
  | .capture kind => do
    let after ← text.sliceFrom start
    let lineEnd := start + Text.runSize (· != '\n') after
    match kind with
    | .short => return text.cutsBetween start lineEnd
    | .shortAcrossLines => return text.cutsBetween start text.byteSize
    | .long => return (text.cutsBetween start lineEnd).reverse
    | .balanced =>
      let line ← text.sliceBetween start lineEnd
      return (start :: balancedStops .start start line).filter text.hasCut

/-- Goes on with `next` behind one offset after the other until it finds an end. A slot that is `kept`
writes its span down before, and takes it back when `next` finds nothing. -/
def tryStops (next : Nat → List Span → Except BadOffset (Option Nat × List Span)) (start : Nat)
    (kept : Bool) : List Nat → List Span → Except BadOffset (Option Nat × List Span)
  | [], captures => .ok (none, captures)
  | stop :: stops, captures => do
    let (found, after) ← next stop (if kept then captures ++ [⟨start, stop⟩] else captures)
    match found with
    | some _ => return (found, after)
    | none => tryStops next start kept stops (if kept then after.dropLast else after)

/-- Where a match of segments that starts at an offset ends, and the captures written down so far. -/
def matchFrom (text : Text) :
    List Segment → Nat → List Span → Except BadOffset (Option Nat × List Span)
  | [], start, captures => .ok (some start, captures)
  | segment :: segments, start, captures => do
    let stops ← segment.stops text start
    tryStops (matchFrom text segments) start segment.isCapture stops captures

namespace Pattern

/-- The match that starts exactly at an offset. -/
def matchByOffset (p : Pattern) (text : Text) (start : Nat) : Except BadOffset (Option Match) := do
  let (stop, captures) ← matchFrom text p.segments start []
  return stop.map fun stop => ⟨⟨start, stop⟩, captures⟩

end Pattern

/-! ## Cuts that do not fail -/

namespace Text

theorem isBoundary_iff (text : Text) (offset : Nat) :
    text.IsBoundary offset ↔ text.hasCut offset = true := by
  rw [hasCut, Option.isSome_iff_exists]
  constructor
  · rintro ⟨before, after, rfl, rfl⟩
    exact ⟨_, splitAtByte_byteSize before after⟩
  · rintro ⟨⟨before, after⟩, h⟩
    exact ⟨before, after, eq_of_splitAtByte h⟩

theorem splitAtByte_eq_none {text : Text} {offset : Nat} (h : ¬ text.IsBoundary offset) :
    text.splitAtByte offset = none := by
  cases hs : text.splitAtByte offset with
  | none => rfl
  | some parts => exact absurd ⟨parts.1, parts.2, eq_of_splitAtByte hs⟩ h

theorem IsBoundary.le {text : Text} {offset : Nat} (h : text.IsBoundary offset) :
    offset ≤ text.byteSize := by
  obtain ⟨before, after, rfl, rfl⟩ := h
  rw [byteSize_append]
  exact Nat.le_add_right _ _

theorem isBoundary_byteSize (before after : Text) :
    (before ++ after).IsBoundary before.byteSize :=
  ⟨before, after, rfl, rfl⟩

theorem sliceFrom_byteSize (before after : Text) :
    (before ++ after).sliceFrom before.byteSize = .ok after := by
  simp [sliceFrom, cutAt, splitAtByte_byteSize, Except.map]

theorem sliceTo_byteSize (before after : Text) :
    (before ++ after).sliceTo before.byteSize = .ok before := by
  simp [sliceTo, cutAt, splitAtByte_byteSize, Except.map]

theorem sliceBetween_byteSize (before slice after : Text) :
    (before ++ (slice ++ after)).sliceBetween before.byteSize (before ++ slice).byteSize =
      .ok slice := by
  have cut := sliceTo_byteSize (before ++ slice) after
  rw [List.append_assoc] at cut
  simp [sliceBetween, cut, sliceFrom_byteSize, bind, Except.bind]

theorem mem_cutsBetween {text : Text} {start stop offset : Nat} :
    offset ∈ text.cutsBetween start stop ↔
      start ≤ offset ∧ offset ≤ stop ∧ text.IsBoundary offset := by
  rw [cutsBetween, List.mem_filter, List.mem_range'_1, isBoundary_iff]
  constructor
  · rintro ⟨⟨lo, hi⟩, cut⟩
    exact ⟨lo, by omega, cut⟩
  · rintro ⟨lo, hi, cut⟩
    exact ⟨⟨lo, by omega⟩, cut⟩

theorem cutsBetween_ascending (text : Text) (start stop : Nat) :
    (text.cutsBetween start stop).Pairwise (· < ·) :=
  (List.pairwise_lt_range' _).filter _

/-- The cuts inside a part of a text are those behind its starts. -/
theorem isBoundary_within (before run rest : Text) (offset : Nat) :
    before.byteSize ≤ offset ∧ offset ≤ (before ++ run).byteSize ∧
        (before ++ (run ++ rest)).IsBoundary offset ↔
      ∃ slice more, run = slice ++ more ∧ offset = (before ++ slice).byteSize := by
  constructor
  · rintro ⟨lo, hi, b, a, same, rfl⟩
    rcases prefix_total same with ⟨slice, rfl, hs⟩ | ⟨u, hu, -⟩
    · rcases prefix_total hs with ⟨u, rfl, -⟩ | ⟨more, rfl, -⟩
      · -- The cut lies behind the part, so it is the one at its end.
        simp only [byteSize_append] at hi
        have : u = [] := (byteSize_eq_zero_iff u).mp (by omega)
        exact ⟨run, [], by simp, by simp [this]⟩
      · exact ⟨slice, more, rfl, rfl⟩
    · rw [hu, byteSize_append] at lo
      have : u = [] := (byteSize_eq_zero_iff u).mp (by omega)
      exact ⟨[], run, rfl, by simp [hu, this]⟩
  · rintro ⟨slice, more, rfl, rfl⟩
    simp only [byteSize_append]
    exact ⟨by omega, by omega, before ++ slice, more ++ rest, by simp, byteSize_append ..⟩

/-- The starts of the longest run are the starts whose characters all belong to it. -/
theorem exists_append_takeWhile (p : Char → Bool) (text slice : Text) :
    (∃ more, text.takeWhile p = slice ++ more) ↔
      (∃ rest, text = slice ++ rest) ∧ ∀ c ∈ slice, p c = true := by
  constructor
  · rintro ⟨more, h⟩
    refine ⟨⟨more ++ text.dropWhile p, ?_⟩, fun c hc => ?_⟩
    · rw [← List.append_assoc, ← h, List.takeWhile_append_dropWhile]
    · exact List.mem_takeWhile_imp (h ▸ List.mem_append_left _ hc)
  · rintro ⟨⟨rest, rfl⟩, all⟩
    exact ⟨rest.takeWhile p, List.takeWhile_append_of_pos all⟩

/-- The cuts inside the longest run behind a text. -/
theorem mem_cutsBetween_run (p : Char → Bool) (before after : Text) (offset : Nat) :
    offset ∈ (before ++ after).cutsBetween before.byteSize (before.byteSize + runSize p after) ↔
      ∃ slice rest, after = slice ++ rest ∧ (∀ c ∈ slice, p c = true) ∧
        offset = before.byteSize + slice.byteSize := by
  have within := isBoundary_within before (after.takeWhile p) (after.dropWhile p) offset
  rw [List.takeWhile_append_dropWhile, byteSize_append] at within
  rw [mem_cutsBetween, runSize, within]
  constructor
  · rintro ⟨slice, more, h, rfl⟩
    obtain ⟨⟨rest, hr⟩, all⟩ := (exists_append_takeWhile p after slice).mp ⟨more, h⟩
    exact ⟨slice, rest, hr, all, byteSize_append ..⟩
  · rintro ⟨slice, rest, hr, all, rfl⟩
    obtain ⟨more, h⟩ := (exists_append_takeWhile p after slice).mpr ⟨⟨rest, hr⟩, all⟩
    exact ⟨slice, more, h, (byteSize_append ..).symm⟩

end Text

/-! ## The ends of balanced slices -/

theorem lt_of_mem_balancedStops {scan : Scan} {offset stop : Nat} {line : Text}
    (h : stop ∈ balancedStops scan offset line) : offset < stop := by
  induction line generalizing scan offset with
  | nil => simp [balancedStops] at h
  | cons c rest ih =>
    have pos := Text.utf8Size_pos c
    have later (h : stop ∈ balancedStops (scan.step c) (offset + c.utf8Size) rest) :
        offset < stop := by
      have := ih h
      omega
    unfold balancedStops at h
    split at h
    · simp at h
    · dsimp only at h
      split at h
      · rcases List.mem_cons.mp h with rfl | h
        · omega
        · exact later h
      · exact later h

theorem balancedStops_ascending (scan : Scan) (offset : Nat) (line : Text) :
    (balancedStops scan offset line).Pairwise (· < ·) := by
  induction line generalizing scan offset with
  | nil => exact .nil
  | cons c rest ih =>
    unfold balancedStops
    split
    · exact .nil
    · dsimp only
      split
      · exact List.pairwise_cons.mpr ⟨fun stop h => lt_of_mem_balancedStops h, ih _ _⟩
      · exact ih _ _

/-- The reading of brackets stops behind the slices that are closed again. -/
theorem mem_balancedStops {scan : Scan} {offset stop : Nat} {line : Text} (feed : '\n' ∉ line) :
    stop ∈ balancedStops scan offset line ↔
      ∃ slice more : Text, line = slice ++ more ∧ slice ≠ [] ∧
        (Segment.capture .balanced).scanned scan slice = some (.plain 0) ∧
        stop = offset + slice.byteSize := by
  induction line generalizing scan offset with
  | nil => simp [balancedStops]
  | cons c rest ih =>
    simp only [List.mem_cons, not_or] at feed
    obtain ⟨hc, feed⟩ := feed
    have extend : (Segment.capture .balanced).extend scan c =
        if scan.stray c then none else some (scan.step c) := by
      simp [Segment.extend, Ne.symm hc]
    unfold balancedStops
    cases stray : scan.stray c with
    | true =>
      simp only [↓reduceIte, List.not_mem_nil, false_iff]
      rintro ⟨slice, more, same, ne, closed, -⟩
      obtain ⟨d, slice, rfl⟩ := List.exists_cons_of_ne_nil ne
      obtain ⟨rfl, -⟩ := List.cons.inj same
      simp [Segment.scanned, extend, stray] at closed
    | false =>
      -- A slice is the next character alone, or that character and a slice behind it.
      have split : (∃ slice more : Text, c :: rest = slice ++ more ∧ slice ≠ [] ∧
            (Segment.capture .balanced).scanned scan slice = some (.plain 0) ∧
            stop = offset + slice.byteSize) ↔
          scan.step c = .plain 0 ∧ stop = offset + c.utf8Size ∨
            stop ∈ balancedStops (scan.step c) (offset + c.utf8Size) rest := by
        rw [ih feed]
        constructor
        · rintro ⟨slice, more, same, ne, closed, rfl⟩
          obtain ⟨d, slice, rfl⟩ := List.exists_cons_of_ne_nil ne
          obtain ⟨rfl, sameRest⟩ := List.cons.inj same
          simp only [Segment.scanned, extend, stray, Bool.false_eq_true, ↓reduceIte] at closed
          cases slice with
          | nil => exact Or.inl ⟨by simpa [Segment.scanned] using closed, rfl⟩
          | cons e slice =>
            refine Or.inr ⟨e :: slice, more, sameRest, List.cons_ne_nil _ _, closed, ?_⟩
            rw [Text.byteSize, Nat.add_assoc]
        · rintro (⟨closed, rfl⟩ | ⟨slice, more, rfl, ne, closed, rfl⟩)
          · exact ⟨[c], rest, rfl, List.cons_ne_nil _ _, by simp [Segment.scanned, extend, stray, closed],
              rfl⟩
          · refine ⟨c :: slice, more, rfl, List.cons_ne_nil _ _, ?_, by rw [Text.byteSize, Nat.add_assoc]⟩
            simpa [Segment.scanned, extend, stray] using closed
      rw [split]
      by_cases closed : scan.step c = .plain 0 <;> simp [closed]

/-! ## The ends of a segment -/

/-- Offsets in the order in which a segment offers its slices. -/
def InOrder (long : Bool) (stops : List Nat) : Prop :=
  stops.Pairwise fun stop later => if long then later < stop else stop < later

theorem InOrder.reverse {stops : List Nat} (h : stops.Pairwise (· < ·)) :
    InOrder true stops.reverse := by
  simpa [InOrder, List.pairwise_reverse] using h

theorem InOrder.ascending {stops : List Nat} (h : stops.Pairwise (· < ·)) : InOrder false stops := by
  simpa [InOrder] using h

/-- The offsets behind the slices that a segment admits at the start of `after`, each once and in the
order in which the segment prefers them. -/
structure Segment.Ends (segment : Segment) (before after : Text) (stops : List Nat) : Prop where
  inOrder : InOrder segment.prefersLong stops
  mem_iff : ∀ stop, stop ∈ stops ↔ ∃ slice rest : Text, after = slice ++ rest ∧
    segment.Admits before.getLast? slice ∧ stop = before.byteSize + slice.byteSize

theorem noFeed_iff (slice : Text) : '\n' ∉ slice ↔ ∀ c ∈ slice, (c != '\n') = true := by
  simp only [bne_iff_ne]
  exact ⟨fun h c hc he => h (he ▸ hc), fun h hc => h _ hc rfl⟩

section Stops

variable (before after : Text)

theorem stops_literal (mark : Text) :
    ∃ stops, (Segment.literal mark).stops (before ++ after) before.byteSize = .ok stops ∧
      (Segment.literal mark).Ends before after stops := by
  have cut := Text.sliceFrom_byteSize before after
  refine ⟨_, by simp only [Segment.stops, cut]; rfl, ?_, fun stop => ?_⟩
  · split <;> simp [InOrder]
  · by_cases stands : mark <+: after
    · obtain ⟨rest, rfl⟩ := stands
      simp [Segment.Admits]
    · have absent : ¬ mark.isPrefixOf after = true := by rwa [List.isPrefixOf_iff_prefix]
      simp only [absent, Bool.false_eq_true, ↓reduceIte, List.not_mem_nil, false_iff]
      rintro ⟨slice, rest, rfl, rfl, -⟩
      exact stands ⟨rest, rfl⟩

theorem stops_lineStart :
    ∃ stops, Segment.lineStart.stops (before ++ after) before.byteSize = .ok stops ∧
      Segment.lineStart.Ends before after stops := by
  have here (atStart : before.getLast? = none ∨ before.getLast? = some '\n') :
      Segment.lineStart.Ends before after [before.byteSize] := by
    refine ⟨by simp [InOrder], fun stop => ?_⟩
    constructor
    · intro h
      exact ⟨[], after, rfl, ⟨rfl, atStart⟩, by simpa [Text.byteSize] using h⟩
    · rintro ⟨slice, rest, -, ⟨rfl, -⟩, rfl⟩
      simp [Text.byteSize]
  by_cases first : before = []
  · subst first
    exact ⟨[0], rfl, here (Or.inl rfl)⟩
  · have later : before.byteSize ≠ 0 := mt (Text.byteSize_eq_zero_iff before).mp first
    have upTo := Text.sliceTo_byteSize before after
    refine ⟨_, by simp only [Segment.stops, later, ↓reduceIte, upTo]; rfl, ?_⟩
    by_cases feed : before.getLast? = some '\n'
    · rw [if_pos feed]
      exact here (Or.inr feed)
    · rw [if_neg feed]
      exact ⟨.nil, fun stop => by simp [Segment.Admits, feed, first]⟩

theorem stops_blanks :
    ∃ stops, Segment.blanks.stops (before ++ after) before.byteSize = .ok stops ∧
      Segment.blanks.Ends before after stops := by
  have cut := Text.sliceFrom_byteSize before after
  refine ⟨_, by simp only [Segment.stops, cut]; rfl, .reverse (Text.cutsBetween_ascending ..),
    fun stop => ?_⟩
  rw [List.mem_reverse]
  exact Text.mem_cutsBetween_run Text.isBlank before after stop

theorem stops_lineBreaks :
    ∃ stops, Segment.lineBreaks.stops (before ++ after) before.byteSize = .ok stops ∧
      Segment.lineBreaks.Ends before after stops := by
  have cut := Text.sliceFrom_byteSize before after
  refine ⟨_, by simp only [Segment.stops, cut]; rfl, .reverse (Text.cutsBetween_ascending ..),
    fun stop => ?_⟩
  have breaks (slice : Text) : (∀ c ∈ slice, Text.isBreak c = true) ↔
      ∀ c ∈ slice, c = '\r' ∨ c = '\n' := by simp [Text.isBreak]
  -- The offsets from the next byte on are those behind the slices that are not empty.
  have run := Text.mem_cutsBetween_run Text.isBreak before after stop
  rw [Text.mem_cutsBetween] at run
  rw [List.mem_reverse, Text.mem_cutsBetween]
  constructor
  · rintro ⟨lo, hi, boundary⟩
    obtain ⟨slice, rest, same, all, rfl⟩ := run.mp ⟨by omega, hi, boundary⟩
    refine ⟨slice, rest, same, ⟨?_, (breaks slice).mp all⟩, rfl⟩
    rintro rfl
    have : Text.byteSize [] = 0 := rfl
    omega
  · rintro ⟨slice, rest, same, ⟨ne, all⟩, rfl⟩
    obtain ⟨-, hi, boundary⟩ := run.mpr ⟨slice, rest, same, (breaks slice).mpr all, rfl⟩
    have pos := mt (Text.byteSize_eq_zero_iff slice).mp ne
    exact ⟨by omega, hi, boundary⟩

/-- The end of a line holds no line feed. -/
theorem mem_cutsBetween_line (stop : Nat) :
    stop ∈ (before ++ after).cutsBetween before.byteSize
        (before.byteSize + Text.runSize (· != '\n') after) ↔
      ∃ slice rest : Text, after = slice ++ rest ∧ '\n' ∉ slice ∧
        stop = before.byteSize + slice.byteSize := by
  simp only [noFeed_iff]
  exact Text.mem_cutsBetween_run _ before after stop

theorem mem_balancedStops_line (stop : Nat) :
    stop ∈ (before.byteSize ::
        balancedStops .start before.byteSize (after.takeWhile (· != '\n'))).filter
          (before ++ after).hasCut ↔
      ∃ slice rest : Text, after = slice ++ rest ∧
        (Segment.capture .balanced).Admits before.getLast? slice ∧
        stop = before.byteSize + slice.byteSize := by
  have line (slice : Text) := Text.exists_append_takeWhile (· != '\n') after slice
  have noFeed : '\n' ∉ after.takeWhile (· != '\n') :=
    (noFeed_iff _).mpr ((line _).mp ⟨[], (List.append_nil _).symm⟩).2
  rw [List.mem_filter, List.mem_cons, mem_balancedStops noFeed, ← Text.isBoundary_iff]
  simp only [Segment.scanned_balanced]
  constructor
  · rintro ⟨rfl | ⟨slice, more, same, -, closed, rfl⟩, -⟩
    · exact ⟨[], after, rfl, ⟨by simp, rfl, by simp⟩, rfl⟩
    · obtain ⟨⟨rest, hr⟩, -⟩ := (line slice).mp ⟨more, same⟩
      exact ⟨slice, rest, hr, closed, rfl⟩
  · rintro ⟨slice, rest, hr, closed, rfl⟩
    refine ⟨?_, ?_⟩
    · by_cases ne : slice = []
      · exact Or.inl (by simp [ne, Text.byteSize])
      · obtain ⟨more, same⟩ := (line slice).mpr ⟨⟨rest, hr⟩, (noFeed_iff slice).mp closed.1⟩
        exact Or.inr ⟨slice, more, same, ne, closed, rfl⟩
    · rw [hr, ← List.append_assoc, ← Text.byteSize_append]
      exact Text.isBoundary_byteSize ..

theorem stops_capture (kind : Capture) :
    ∃ stops, (Segment.capture kind).stops (before ++ after) before.byteSize = .ok stops ∧
      (Segment.capture kind).Ends before after stops := by
  have cut := Text.sliceFrom_byteSize before after
  have ascending := Text.cutsBetween_ascending (before ++ after) before.byteSize
  cases kind with
  | short =>
    exact ⟨_, by simp only [Segment.stops, cut]; rfl, .ascending (ascending _),
      mem_cutsBetween_line before after⟩
  | shortAcrossLines =>
    refine ⟨_, by simp only [Segment.stops, cut]; rfl, .ascending (ascending _), fun stop => ?_⟩
    have within := Text.isBoundary_within before after [] stop
    rw [List.append_nil, Text.byteSize_append] at within
    rw [Text.byteSize_append, Text.mem_cutsBetween, within]
    simp only [Text.byteSize_append, Segment.Admits, true_and]
  | long =>
    refine ⟨_, by simp only [Segment.stops, cut]; rfl, .reverse (ascending _), fun stop => ?_⟩
    rw [List.mem_reverse]
    exact mem_cutsBetween_line before after stop
  | balanced =>
    have line := Text.sliceBetween_byteSize before (after.takeWhile (· != '\n'))
      (after.dropWhile (· != '\n'))
    rw [List.takeWhile_append_dropWhile, Text.byteSize_append] at line
    refine ⟨_, by simp only [Segment.stops, cut, Text.runSize, line, bind, Except.bind]; rfl,
      .ascending ?_, mem_balancedStops_line before after⟩
    refine List.Pairwise.filter _ (List.pairwise_cons.mpr ⟨?_, balancedStops_ascending ..⟩)
    exact fun stop h => lt_of_mem_balancedStops h

/-- At a place between characters no cut fails. -/
theorem stops_ends (segment : Segment) :
    ∃ stops, segment.stops (before ++ after) before.byteSize = .ok stops ∧
      segment.Ends before after stops := by
  cases segment with
  | literal mark => exact stops_literal before after mark
  | lineStart => exact stops_lineStart before after
  | blanks => exact stops_blanks before after
  | lineBreaks => exact stops_lineBreaks before after
  | capture kind => exact stops_capture before after kind

end Stops

/-! ## One end after the other -/

/-- What is to be answered and written down behind the captures, when a search has found an end and the
captures behind it, or nothing. -/
def record (found : Option (Nat × List Span)) (captures : List Span) : Option Nat × List Span :=
  match found with
  | some (stop, spans) => (some stop, captures ++ spans)
  | none => (none, captures)

def withSlot (start : Nat) (kept : Bool) (stop : Nat) (found : Nat × List Span) : Nat × List Span :=
  (found.1, if kept then ⟨start, stop⟩ :: found.2 else found.2)

/-- The first end behind which something is found is taken, and what was written down for the ends
before it has been taken back. -/
theorem tryStops_eq {next : Nat → List Span → Except BadOffset (Option Nat × List Span)}
    {found : Nat → Option (Nat × List Span)} {stops : List Nat}
    (h : ∀ stop ∈ stops, ∀ captures, next stop captures = .ok (record (found stop) captures))
    (start : Nat) (kept : Bool) (captures : List Span) :
    tryStops next start kept stops captures =
      .ok (record (stops.findSome? fun stop => (found stop).map (withSlot start kept stop))
        captures) := by
  induction stops with
  | nil => rfl
  | cons stop stops ih =>
    have later := ih fun other ho => h other (List.mem_cons_of_mem _ ho)
    rw [tryStops, h stop List.mem_cons_self]
    cases hf : found stop with
    | some answer => cases kept <;> simp [bind, Except.bind, pure, Except.pure, record, withSlot, hf]
    | none =>
      cases kept <;> simpa [bind, Except.bind, record, hf] using later

/-- Going through the ends in order comes to the choice among the slices. -/
theorem Chosen.findSome? {α β : Type} {long : Bool} {offered : Text → Prop}
    {result : Text → Text → Option α} {text : Text} {answer : Option α}
    (h : Chosen long offered result text answer) {start : Nat} {stops : List Nat}
    (inOrder : InOrder long stops)
    (mem_iff : ∀ stop, stop ∈ stops ↔ ∃ slice rest : Text, text = slice ++ rest ∧ offered slice ∧
      stop = start + slice.byteSize)
    {attempt : Nat → Option β} {g : α → β}
    (same : ∀ slice rest : Text, text = slice ++ rest → offered slice →
      attempt (start + slice.byteSize) = (result slice rest).map g) :
    stops.findSome? attempt = answer.map g := by
  cases answer with
  | none =>
    rw [Option.map_none, List.findSome?_eq_none_iff]
    intro stop hs
    obtain ⟨slice, rest, ht, ho, rfl⟩ := (mem_iff stop).mp hs
    rw [same slice rest ht ho, h slice rest ht ho, Option.map_none]
  | some answer =>
    obtain ⟨slice, rest, ht, ho, hr, best⟩ := h
    obtain ⟨earlier, later, rfl⟩ :=
      List.append_of_mem ((mem_iff _).mpr ⟨slice, rest, ht, ho, rfl⟩)
    have missed : ∀ stop ∈ earlier, attempt stop = none := by
      intro stop hs
      obtain ⟨other, more, ht', ho', rfl⟩ := (mem_iff stop).mp (List.mem_append_left _ hs)
      rw [same other more ht' ho', Option.map_eq_none_iff]
      by_contra hne
      have hle := best other more ht' ho' hne
      have hlt := (List.pairwise_append.mp inOrder).2.2 _ hs _ List.mem_cons_self
      have shorter := Text.length_lt_iff_byteSize_lt (ht'.symm.trans ht)
      have longer := Text.length_lt_iff_byteSize_lt (ht.symm.trans ht')
      cases long <;> simp only [Bool.false_eq_true, ↓reduceIte] at hle hlt <;> omega
    rw [List.findSome?_append, List.findSome?_eq_none_iff.mpr missed, Option.none_or,
      List.findSome?_cons, same slice rest ht ho, hr]
    rfl

/-! ## A match at an offset -/

/-- The end of a match behind `before` and its captures. -/
def reached (segments : List Segment) (before : Text) (slices : List Text) : Nat × List Span :=
  (before.byteSize + Text.byteSize slices.flatten,
    captureSpans segments (spansFrom before.byteSize slices))

theorem reached_cons (segment : Segment) (segments : List Segment) (before slice : Text)
    (more : List Text) :
    withSlot before.byteSize segment.isCapture (before ++ slice).byteSize
        (reached segments (before ++ slice) more) =
      reached (segment :: segments) before (slice :: more) := by
  cases h : segment.isCapture <;>
    simp [reached, withSlot, spansFrom, captureSpans, Text.byteSize_append, h, Nat.add_assoc]

/-- What segments find behind an offset. -/
def foundFrom (segments : List Segment) (text : Text) (offset : Nat) : Option (Nat × List Span) :=
  (text.splitAtByte offset).bind fun parts =>
    (matchSlices segments parts.1.getLast? parts.2).map (reached segments parts.1)

theorem foundFrom_byteSize (segments : List Segment) (before after : Text) :
    foundFrom segments (before ++ after) before.byteSize =
      (matchSlices segments before.getLast? after).map (reached segments before) := by
  rw [foundFrom, Text.splitAtByte_byteSize, Option.bind_some]

/-- From a place between characters no cut fails. The search by offsets ends where the slices end, and
of the captures that it wrote down those of the match are left. -/
theorem matchFrom_eq (segments : List Segment) (before after : Text) (captures : List Span) :
    matchFrom (before ++ after) segments before.byteSize captures =
      .ok (record ((matchSlices segments before.getLast? after).map (reached segments before))
        captures) := by
  induction segments generalizing before after captures with
  | nil => simp [matchFrom, matchSlices, record, reached, captureSpans, Text.byteSize]
  | cons segment segments ih =>
    obtain ⟨stops, hstops, ends⟩ := stops_ends before after segment
    have next : ∀ stop ∈ stops, ∀ captures, matchFrom (before ++ after) segments stop captures =
        .ok (record (foundFrom segments (before ++ after) stop) captures) := by
      intro stop hs captures
      obtain ⟨slice, rest, rfl, -, rfl⟩ := (ends.mem_iff stop).mp hs
      rw [← List.append_assoc, ← Text.byteSize_append, foundFrom_byteSize]
      exact ih (before ++ slice) rest captures
    have chosen := matchSlices_chosen segment segments before.getLast? after
    have first : (stops.findSome? fun stop =>
        (foundFrom segments (before ++ after) stop).map
          (withSlot before.byteSize segment.isCapture stop)) =
          (matchSlices (segment :: segments) before.getLast? after).map
            (reached (segment :: segments) before) := by
      refine chosen.findSome? ends.inOrder ends.mem_iff fun slice rest same _ => ?_
      rw [same, ← List.append_assoc, ← Text.byteSize_append, foundFrom_byteSize, slicesAfter,
        Text.lastOr_getLast?, Option.map_map, Option.map_map]
      exact congrArg (Option.map · _) (funext (reached_cons segment segments before slice))
    rw [matchFrom, hstops]
    show tryStops _ _ _ stops captures = _
    rw [tryStops_eq next, first]

namespace Pattern

variable (p : Pattern)

theorem matchByOffset_eq (before after : Text) :
    p.matchByOffset (before ++ after) before.byteSize =
      .ok ((p.matchHere before.getLast? after).map (p.toMatch before.byteSize)) := by
  rw [matchByOffset, matchFrom_eq, matchHere]
  cases matchSlices p.segments before.getLast? after with
  | none => rfl
  | some slices =>
    simp [bind, Except.bind, pure, Except.pure, record, reached, toMatch, Found.whole,
      Text.byteSize]

end Pattern

end Stencil
