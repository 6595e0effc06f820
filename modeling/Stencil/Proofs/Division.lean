import Stencil.Pattern.Match
import Stencil.Proofs.Offset

/-!
# Matches as divisions

A pattern matches at a place when the text behind it can be divided into one slice per segment.
`Divides` says so with the offsets between the slices, and `Precedes` orders the divisions from one
place as the segments prefer them, the first segment deciding first.

Proved here, for every pattern, text and place: `matchAt_first_division`, the search at a place
succeeds exactly when there is a division, and it then answers the first one.

The search offers the slices of one slot after the other and goes on with the remaining segments.
`Chosen` says what such a search has to answer whatever comes after the slot, `matchSlices_first`
puts the slots together.
-/

namespace Stencil

/-! ## Divisions of a text -/

/-- The offsets divide a part of the text into slices that the segments admit. -/
inductive Divides (text : Text) : List Segment → List Nat → Prop
  | done {offset : Nat} (boundary : text.IsBoundary offset) : Divides text [] [offset]
  | slice {segment : Segment} {segments : List Segment} {before slice after : Text}
      {cuts : List Nat} (cut : text = before ++ slice ++ after)
      (admitted : segment.Admits before.getLast? slice)
      (rest : Divides text segments ((before ++ slice).byteSize :: cuts)) :
      Divides text (segment :: segments)
        (before.byteSize :: (before ++ slice).byteSize :: cuts)

/-- The first division comes before the second: where they part, runs of blanks, of line breaks and
the longest captures prefer the longer slice, other segments the shorter one. -/
def Precedes : List Segment → List Nat → List Nat → Prop
  | segment :: segments, _ :: p :: cuts, _ :: q :: others =>
    if p = q then Precedes segments (p :: cuts) (q :: others)
    else
      match segment with
      | .blanks | .lineBreaks | .capture .long => q < p
      | _ => p < q
  | _, _, _ => False

def spansBetween : List Nat → List Span
  | p :: q :: cuts => ⟨p, q⟩ :: spansBetween (q :: cuts)
  | _ => []

def slotSpans (segments : List Segment) (cuts : List Nat) : List Span :=
  ((segments.zip (spansBetween cuts)).filter fun slot => slot.1.isCapture).map Prod.snd

/-! ## Choosing among slices -/

/-- What a search among the slices at the start of a text answers: the result of the longest or of
the shortest of those that are offered and have a result, or nothing when there are none. -/
def Chosen {α : Type} (long : Bool) (offered : Text → Prop) (result : Text → Text → Option α)
    (text : Text) : Option α → Prop
  | none => ∀ slice rest, text = slice ++ rest → offered slice → result slice rest = none
  | some answer =>
    ∃ slice rest, text = slice ++ rest ∧ offered slice ∧ result slice rest = some answer ∧
      ∀ other more, text = other ++ more → offered other → result other more ≠ none →
        if long then other.length ≤ slice.length else slice.length ≤ other.length

section Chosen

variable {α : Type} {offered : Text → Prop} {result : Text → Text → Option α}

theorem Chosen.nil {long : Bool} {now : Option α} (yes : offered [] → now = result [] [])
    (no : ¬ offered [] → now = none) : Chosen long offered result [] now := by
  cases hn : now with
  | none =>
    rintro slice rest h ho
    obtain ⟨rfl, rfl⟩ := List.append_eq_nil_iff.mp h.symm
    rw [← yes ho, hn]
  | some answer =>
    by_cases ho : offered []
    · refine ⟨[], [], rfl, ho, by rw [← yes ho, hn], ?_⟩
      rintro other more h - -
      obtain ⟨rfl, rfl⟩ := List.append_eq_nil_iff.mp h.symm
      cases long <;> simp
    · simp [no ho] at hn

/-- The shorter slices come first: the empty one, then those with the next character. -/
theorem Chosen.consShort {c : Char} {text : Text} {now later : Option α}
    (yes : offered [] → now = result [] (c :: text)) (no : ¬ offered [] → now = none)
    (hl : Chosen false (fun slice => offered (c :: slice)) (fun slice => result (c :: slice))
      text later) :
    Chosen false offered result (c :: text) (now <|> later) := by
  cases hn : now with
  | some answer =>
    by_cases ho : offered []
    · refine ⟨[], c :: text, rfl, ho, by rw [← yes ho, hn], ?_⟩
      simp
    · simp [no ho] at hn
  | none =>
    cases later with
    | none =>
      rintro slice rest h ho
      cases slice with
      | nil => rw [← hn, yes ho, ← (show c :: text = rest from h)]
      | cons d slice =>
        obtain ⟨rfl, ht⟩ := List.cons.inj h
        exact hl slice rest ht ho
    | some answer =>
      obtain ⟨slice, rest, ht, ho, hr, hmin⟩ := hl
      refine ⟨c :: slice, rest, by simp [ht], ho, hr, ?_⟩
      rintro other more h hoo hne
      cases other with
      | nil => exact absurd (by rw [← (show c :: text = more from h), ← yes hoo, hn]) hne
      | cons d other =>
        obtain ⟨rfl, ht'⟩ := List.cons.inj h
        simpa using hmin other more ht' hoo hne

/-- The longer slices come first: those with the next character, then the empty one. -/
theorem Chosen.consLong {c : Char} {text : Text} {now later : Option α}
    (yes : offered [] → now = result [] (c :: text)) (no : ¬ offered [] → now = none)
    (hl : Chosen true (fun slice => offered (c :: slice)) (fun slice => result (c :: slice))
      text later) :
    Chosen true offered result (c :: text) (later <|> now) := by
  cases later with
  | some answer =>
    obtain ⟨slice, rest, ht, ho, hr, hmax⟩ := hl
    refine ⟨c :: slice, rest, by simp [ht], ho, hr, ?_⟩
    rintro other more h hoo hne
    cases other with
    | nil => simp
    | cons d other =>
      obtain ⟨rfl, ht'⟩ := List.cons.inj h
      simpa using hmax other more ht' hoo hne
  | none =>
    have tail : ∀ other more, c :: text = other ++ more → offered other →
        result other more ≠ none → other = [] := by
      rintro other more h ho hne
      cases other with
      | nil => rfl
      | cons d other =>
        obtain ⟨rfl, ht⟩ := List.cons.inj h
        exact absurd (hl other more ht ho) hne
    cases hn : now with
    | none =>
      rintro slice rest h ho
      cases hr : result slice rest with
      | none => rfl
      | some answer =>
        obtain rfl := tail slice rest h ho (by simp [hr])
        rw [← (show c :: text = rest from h), ← yes ho, hn] at hr
        exact hr.symm
    | some answer =>
      by_cases ho : offered []
      · refine ⟨[], c :: text, rfl, ho, by rw [← yes ho, hn], ?_⟩
        rintro other more h hoo hne
        simp [tail other more h hoo hne]
      · simp [no ho] at hn

end Chosen

/-! ## The slices of one slot -/

namespace Segment

/-- The reading of a slice, when the slot can go on up to its end. -/
def scanned (segment : Segment) : Scan → Text → Option Scan
  | scan, [] => some scan
  | scan, c :: rest =>
    match segment.extend scan c with
    | some scan => segment.scanned scan rest
    | none => none

/-- A slot that has read `taken` (its last character first) offers to go on with a slice. -/
def Offers (segment : Segment) (scan : Scan) (taken slice : Text) : Prop :=
  ∃ after, segment.scanned scan slice = some after ∧
    segment.mayEnd after (slice.reverse ++ taken) = true

theorem offers_nil (segment : Segment) (scan : Scan) (taken : Text) :
    segment.Offers scan taken [] ↔ segment.mayEnd scan taken = true := by
  simp [Offers, scanned]

theorem offers_cons (segment : Segment) (scan : Scan) (taken slice : Text) (c : Char) :
    segment.Offers scan taken (c :: slice) ↔
      ∃ next, segment.extend scan c = some next ∧ segment.Offers next (c :: taken) slice := by
  cases h : segment.extend scan c <;> simp [Offers, scanned, h]

/-- A slot that looks at one character at a time reads the texts of such characters. -/
theorem scanned_eq_of_extend {segment : Segment} {p : Char → Bool}
    (h : ∀ scan c, segment.extend scan c = if p c then some scan else none) (scan : Scan)
    (slice : Text) : segment.scanned scan slice = if slice.all p then some scan else none := by
  induction slice with
  | nil => simp [scanned]
  | cons c slice ih => cases hp : p c <;> simp [scanned, h, hp, ih]

theorem scanned_balanced (scan after : Scan) (slice : Text) :
    (capture .balanced).scanned scan slice = some after ↔
      '\n' ∉ slice ∧ scan.run slice = after ∧
        ∀ done c more, slice = done ++ c :: more → (scan.run done).stray c = false := by
  induction slice generalizing scan with
  | nil => simp [scanned, Scan.run]
  | cons c slice ih =>
    have split : (∀ done d more, c :: slice = done ++ d :: more → (scan.run done).stray d = false) ↔
        scan.stray c = false ∧
          ∀ done d more, slice = done ++ d :: more →
            ((scan.step c).run done).stray d = false := by
      constructor
      · intro h
        refine ⟨h [] c slice rfl, fun done d more hs => ?_⟩
        simpa [Scan.run] using h (c :: done) d more (by simp [hs])
      · rintro ⟨hc, h⟩ done d more hs
        cases done with
        | nil => obtain ⟨rfl, -⟩ := List.cons.inj hs; simpa [Scan.run] using hc
        | cons e done =>
          obtain ⟨rfl, ht⟩ := List.cons.inj hs
          simpa [Scan.run] using h done d more ht
    rw [split]
    by_cases hn : c = '\n'
    · simp [scanned, extend, hn]
    · cases hc : scan.stray c
      · simp [scanned, extend, hn, hc, ih, Scan.run, Ne.symm hn]
      · simp [scanned, extend, hc]

/-- The slot is one whose slices are searched for. -/
def isSearched : Segment → Bool
  | .literal _ | .lineStart => false
  | _ => true

/-- A slot offers the slices that it admits. -/
theorem admits_iff_offers {segment : Segment} (h : segment.isSearched = true)
    (earlier : Option Char) (slice : Text) :
    segment.Admits earlier slice ↔ segment.Offers .start [] slice := by
  have one {p : Char → Bool}
      (he : ∀ scan c, segment.extend scan c = if p c then some scan else none) :
      segment.Offers .start [] slice ↔
        slice.all p = true ∧ segment.mayEnd .start slice.reverse = true := by
    cases hp : slice.all p <;> simp [Offers, scanned_eq_of_extend he, hp]
  have onLine : '\n' ∉ slice ↔ slice.all (fun c => !(c == '\n')) = true := by
    simp only [List.all_eq_true, Bool.not_eq_true', beq_eq_false_iff_ne]
    exact ⟨fun hn c hc he => hn (he ▸ hc), fun hn hc => hn _ hc rfl⟩
  cases segment with
  | literal text => simp [isSearched] at h
  | lineStart => simp [isSearched] at h
  | blanks => rw [one (p := Text.isBlank) (fun _ _ => rfl)]; simp [Admits, mayEnd]
  | lineBreaks =>
    rw [one (p := fun c => c == '\r' || c == '\n') (fun _ _ => rfl)]
    simp [Admits, mayEnd, and_comm]
  | capture kind =>
    cases kind with
    | short =>
      rw [one (p := fun c => !(c == '\n')) (fun _ c => by cases h : c == '\n' <;> simp [extend, h])]
      simp only [Admits, onLine, mayEnd, and_true]
    | long =>
      rw [one (p := fun c => !(c == '\n')) (fun _ c => by cases h : c == '\n' <;> simp [extend, h])]
      simp only [Admits, onLine, mayEnd, and_true]
    | shortAcrossLines =>
      rw [one (p := fun _ => true) (fun _ _ => rfl)]
      simp [Admits, mayEnd]
    | balanced =>
      simp only [Offers, scanned_balanced, Admits, mayEnd, beq_iff_eq]
      constructor
      · rintro ⟨hn, hr, hs⟩; exact ⟨.plain 0, ⟨hn, hr, hs⟩, rfl⟩
      · rintro ⟨after, ⟨hn, hr, hs⟩, rfl⟩; exact ⟨hn, hr, hs⟩

end Segment

section Offers

variable (segment : Segment) (next : Option Char → Text → Option (List Text))
  (earlier : Option Char)

/-- The slices that come of a slot going on with a slice after `taken`. -/
def resumed (taken slice rest : Text) : Option (List Text) :=
  (next ((slice.reverse ++ taken).head?.or earlier) rest).map ((taken.reverse ++ slice) :: ·)

theorem resumed_cons (taken slice rest : Text) (c : Char) :
    resumed next earlier taken (c :: slice) rest = resumed next earlier (c :: taken) slice rest := by
  simp [resumed]

theorem chosen_congr {α : Type} {long : Bool} {offered offered' : Text → Prop}
    {result result' : Text → Text → Option α} {text : Text} {answer : Option α}
    (ho : ∀ slice, offered slice ↔ offered' slice)
    (hr : ∀ slice rest, result slice rest = result' slice rest)
    (h : Chosen long offered result text answer) : Chosen long offered' result' text answer := by
  obtain rfl : offered = offered' := funext fun slice => propext (ho slice)
  obtain rfl : result = result' := funext fun slice => funext fun rest => hr slice rest
  exact h

theorem offerShortest_chosen (text taken : Text) (scan : Scan) :
    Chosen false (segment.Offers scan taken) (resumed next earlier taken) text
      (offerShortest segment next earlier scan taken text) := by
  induction text generalizing scan taken with
  | nil =>
    apply Chosen.nil <;> intro h <;> rw [Segment.offers_nil] at h <;>
      simp [offerShortest, resumed, h]
  | cons c text ih =>
    apply Chosen.consShort
    · intro h; rw [Segment.offers_nil] at h; simp [resumed, h]
    · intro h; rw [Segment.offers_nil] at h; simp [h]
    · cases he : segment.extend scan c with
      | none =>
        rintro slice rest - ho
        obtain ⟨after, ha, -⟩ := (Segment.offers_cons ..).mp ho
        simp [he] at ha
      | some after =>
        refine chosen_congr (fun slice => ?_) (fun slice rest => ?_) (ih (c :: taken) after)
        · simp [Segment.offers_cons, he]
        · rw [resumed_cons]

theorem offerLongest_chosen (text taken : Text) (scan : Scan) :
    Chosen true (segment.Offers scan taken) (resumed next earlier taken) text
      (offerLongest segment next earlier scan taken text) := by
  induction text generalizing scan taken with
  | nil =>
    apply Chosen.nil <;> intro h <;> rw [Segment.offers_nil] at h <;>
      simp [offerLongest, resumed, h]
  | cons c text ih =>
    apply Chosen.consLong
    · intro h; rw [Segment.offers_nil] at h; simp [resumed, h]
    · intro h; rw [Segment.offers_nil] at h; simp [h]
    · cases he : segment.extend scan c with
      | none =>
        rintro slice rest - ho
        obtain ⟨after, ha, -⟩ := (Segment.offers_cons ..).mp ho
        simp [he] at ha
      | some after =>
        refine chosen_congr (fun slice => ?_) (fun slice rest => ?_) (ih (c :: taken) after)
        · simp [Segment.offers_cons, he]
        · rw [resumed_cons]

end Offers

/-! ## The slices of all segments -/

/-- The slices stand one after the other at the start of the text, one for each segment, which
admits it. -/
def Admitted : List Segment → Option Char → Text → List Text → Prop
  | [], _, _, slices => slices = []
  | segment :: segments, earlier, text, slices =>
    ∃ slice rest more, slices = slice :: more ∧ text = slice ++ rest ∧
      segment.Admits earlier slice ∧ Admitted segments (Text.lastOr earlier slice) rest more

/-- The first slices come before the second ones. -/
def Preferred : List Segment → List Text → List Text → Prop
  | segment :: segments, slice :: slices, other :: others =>
    if slice = other then Preferred segments slices others
    else if segment.prefersLong then other.length < slice.length
    else slice.length < other.length
  | _, _, _ => False

/-- The answer is the first of the admitted lists of slices, or there is none. -/
def IsFirst (segments : List Segment) (earlier : Option Char) (text : Text) :
    Option (List Text) → Prop
  | none => ∀ slices, ¬ Admitted segments earlier text slices
  | some slices =>
    Admitted segments earlier text slices ∧
      ∀ others, Admitted segments earlier text others →
        others = slices ∨ Preferred segments slices others

def slicesAfter (segments : List Segment) (earlier : Option Char) (slice rest : Text) :
    Option (List Text) :=
  (matchSlices segments (Text.lastOr earlier slice) rest).map (slice :: ·)

theorem matchSlices_searched {segment : Segment} (h : segment.isSearched = true)
    (segments : List Segment) (earlier : Option Char) (text : Text) :
    matchSlices (segment :: segments) earlier text =
      if segment.prefersLong then
        offerLongest segment (matchSlices segments) earlier .start [] text
      else offerShortest segment (matchSlices segments) earlier .start [] text := by
  cases segment with
  | literal _ => simp [Segment.isSearched] at h
  | lineStart => simp [Segment.isSearched] at h
  | blanks => rfl
  | lineBreaks => rfl
  | capture kind => cases kind <;> rfl

/-- A segment that admits only one slice leaves nothing to choose. -/
theorem chosen_of_unique {segment : Segment} {earlier : Option Char} {text : Text} (only : Text)
    (long : Bool) (result : Text → Text → Option (List Text)) {answer : Option (List Text)}
    (unique : ∀ slice, segment.Admits earlier slice → slice = only)
    (found : ∀ rest, text = only ++ rest → segment.Admits earlier only →
      answer = result only rest)
    (missing : answer ≠ none → ∃ rest, text = only ++ rest ∧ segment.Admits earlier only) :
    Chosen long (segment.Admits earlier) result text answer := by
  cases answer with
  | none =>
    rintro slice rest h ha
    obtain rfl := unique slice ha
    exact (found rest h ha).symm
  | some slices =>
    obtain ⟨rest, h, ha⟩ := missing (by simp)
    refine ⟨only, rest, h, ha, (found rest h ha).symm, ?_⟩
    rintro other more - ho -
    rw [unique other ho]
    cases long <;> simp

/-- The search with a segment in front chooses among the slices of that segment. -/
theorem matchSlices_chosen (segment : Segment) (segments : List Segment) (earlier : Option Char)
    (text : Text) :
    Chosen segment.prefersLong (segment.Admits earlier) (slicesAfter segments earlier) text
      (matchSlices (segment :: segments) earlier text) := by
  by_cases hs : segment.isSearched = true
  · have after : ∀ slice rest, resumed (matchSlices segments) earlier [] slice rest =
        slicesAfter segments earlier slice rest := by
      intro slice rest
      simp [resumed, slicesAfter, Text.lastOr]
    have admits : ∀ slice, segment.Offers .start [] slice ↔ segment.Admits earlier slice :=
      fun slice => (Segment.admits_iff_offers hs earlier slice).symm
    rw [matchSlices_searched hs]
    cases hl : segment.prefersLong with
    | true => exact chosen_congr admits after (offerLongest_chosen ..)
    | false => exact chosen_congr admits after (offerShortest_chosen ..)
  · cases segment with
    | literal mark =>
      apply chosen_of_unique mark
      · rintro slice rfl; rfl
      · rintro rest rfl -
        simp [matchSlices, slicesAfter, Text.dropStart?_append]
      · intro h
        cases hd : Text.dropStart? mark text with
        | none => simp [matchSlices, hd] at h
        | some rest => exact ⟨rest, Text.eq_append_of_dropStart? hd, rfl⟩
    | lineStart =>
      apply chosen_of_unique []
      · rintro slice ⟨rfl, -⟩; rfl
      · rintro rest rfl ⟨-, ha⟩
        simp [matchSlices, slicesAfter, Text.lastOr, ha]
      · intro h
        by_cases ha : earlier = none ∨ earlier = some '\n'
        · exact ⟨text, rfl, rfl, ha⟩
        · simp [matchSlices, ha] at h
    | blanks => exact absurd rfl hs
    | lineBreaks => exact absurd rfl hs
    | capture kind => cases kind <;> exact absurd rfl hs

/-- The search answers the first of the admitted lists of slices. -/
theorem matchSlices_first (segments : List Segment) (earlier : Option Char) (text : Text) :
    IsFirst segments earlier text (matchSlices segments earlier text) := by
  induction segments generalizing earlier text with
  | nil => exact ⟨rfl, fun others h => Or.inl h⟩
  | cons segment segments ih =>
    have chosen := matchSlices_chosen segment segments earlier text
    -- a list of slices for the remaining segments keeps the search behind a slice from failing
    have goesOn : ∀ slice rest more,
        Admitted segments (Text.lastOr earlier slice) rest more →
        slicesAfter segments earlier slice rest ≠ none := by
      intro slice rest more h hn
      have := ih (Text.lastOr earlier slice) rest
      rw [Option.map_eq_none_iff.mp hn] at this
      exact this more h
    cases hm : matchSlices (segment :: segments) earlier text with
    | none =>
      rintro slices ⟨slice, rest, more, -, ht, ha, hr⟩
      rw [hm] at chosen
      exact goesOn slice rest more hr (chosen slice rest ht ha)
    | some slices =>
      rw [hm] at chosen
      obtain ⟨slice, rest, ht, ha, hr, best⟩ := chosen
      obtain ⟨more, hmore, rfl⟩ := Option.map_eq_some_iff.mp hr
      have first := ih (Text.lastOr earlier slice) rest
      rw [hmore] at first
      refine ⟨⟨slice, rest, more, rfl, ht, ha, first.1⟩, ?_⟩
      rintro others ⟨other, rest', more', rfl, ht', ha', hr'⟩
      by_cases he : slice = other
      · subst he
        obtain rfl : rest = rest' := List.append_cancel_left (ht.symm.trans ht')
        rcases first.2 more' hr' with rfl | hp
        · exact Or.inl rfl
        · exact Or.inr (by simpa [Preferred] using hp)
      · have hne : slice.length ≠ other.length := fun hl =>
          he (List.append_inj_left (ht.symm.trans ht') hl)
        have := best other rest' ht' ha' (goesOn other rest' more' hr')
        right
        cases hl : segment.prefersLong <;> simp only [hl, Bool.false_eq_true, ↓reduceIte] at this <;>
          simp only [Preferred, he, hl, Bool.false_eq_true, ↓reduceIte] <;> omega

/-! ## From slices to offsets -/

/-- The offsets behind slices that follow one another. -/
def offsetsFrom (start : Nat) : List Text → List Nat
  | [] => []
  | slice :: slices =>
    (start + slice.byteSize) :: offsetsFrom (start + slice.byteSize) slices

theorem divides_nil_iff (text : Text) (cuts : List Nat) :
    Divides text [] cuts ↔ ∃ offset, text.IsBoundary offset ∧ cuts = [offset] := by
  constructor
  · intro h
    cases h with
    | done boundary => exact ⟨_, boundary, rfl⟩
  · rintro ⟨offset, boundary, rfl⟩
    exact .done boundary

theorem divides_cons_iff (text : Text) (segment : Segment) (segments : List Segment)
    (cuts : List Nat) :
    Divides text (segment :: segments) cuts ↔
      ∃ before slice after rest, text = before ++ slice ++ after ∧
        segment.Admits before.getLast? slice ∧
        Divides text segments ((before ++ slice).byteSize :: rest) ∧
        cuts = before.byteSize :: (before ++ slice).byteSize :: rest := by
  constructor
  · intro h
    cases h with
    | slice cut admitted rest => exact ⟨_, _, _, _, cut, admitted, rest, rfl⟩
  · rintro ⟨before, slice, after, rest, cut, admitted, hr, rfl⟩
    exact .slice cut admitted hr

/-- Behind a cut, the divisions are the offsets of admitted slices. -/
theorem divides_iff_admitted (segments : List Segment) (before after : Text) (cuts : List Nat) :
    Divides (before ++ after) segments (before.byteSize :: cuts) ↔
      ∃ slices, Admitted segments before.getLast? after slices ∧
        cuts = offsetsFrom before.byteSize slices := by
  induction segments generalizing before after cuts with
  | nil =>
    rw [divides_nil_iff]
    constructor
    · rintro ⟨offset, -, h⟩
      obtain ⟨-, rfl⟩ := List.cons.inj h
      exact ⟨[], rfl, rfl⟩
    · rintro ⟨slices, rfl, rfl⟩
      exact ⟨before.byteSize, ⟨before, after, rfl, rfl⟩, rfl⟩
  | cons segment segments ih =>
    rw [divides_cons_iff]
    constructor
    · rintro ⟨other, slice, rest, cuts, ht, ha, hr, h⟩
      obtain ⟨hs, rfl⟩ := List.cons.inj h
      rw [List.append_assoc] at ht
      obtain rfl := Text.eq_of_byteSize_eq ht hs
      obtain rfl := List.append_cancel_left ht
      rw [← List.append_assoc, ih] at hr
      obtain ⟨slices, hm, rfl⟩ := hr
      refine ⟨slice :: slices, ⟨slice, rest, slices, rfl, rfl, ha, ?_⟩, ?_⟩
      · rwa [Text.lastOr_getLast?]
      · simp [offsetsFrom, Text.byteSize_append]
    · rintro ⟨slices, ⟨slice, rest, more, rfl, rfl, ha, hm⟩, rfl⟩
      refine ⟨before, slice, rest, offsetsFrom (before ++ slice).byteSize more, by simp, ha, ?_, ?_⟩
      · rw [← List.append_assoc, ih]
        rw [Text.lastOr_getLast?] at hm
        exact ⟨more, hm, rfl⟩
      · simp [offsetsFrom, Text.byteSize_append]

/-- The order of slices is the order of the offsets behind them. -/
theorem precedes_of_preferred {segments : List Segment} {earlier : Option Char} {text : Text}
    {slices others : List Text} (start : Nat) (hs : Admitted segments earlier text slices)
    (ho : Admitted segments earlier text others) (h : Preferred segments slices others) :
    Precedes segments (start :: offsetsFrom start slices)
      (start :: offsetsFrom start others) := by
  induction segments generalizing earlier text slices others start with
  | nil => simp [Preferred] at h
  | cons segment segments ih =>
    obtain ⟨slice, rest, slices, rfl, ht, -, hs⟩ := hs
    obtain ⟨other, rest', others, rfl, ht', -, ho⟩ := ho
    by_cases he : slice = other
    · subst he
      obtain rfl := List.append_cancel_left (ht.symm.trans ht')
      simp only [Preferred, ↓reduceIte] at h
      simpa [offsetsFrom, Precedes] using ih (start + slice.byteSize) hs ho h
    · have hsize : slice.byteSize ≠ other.byteSize := fun hb =>
        he (Text.eq_of_byteSize_eq (ht.symm.trans ht') hb)
      have hlt := Text.length_lt_iff_byteSize_lt (ht.symm.trans ht')
      have hgt := Text.length_lt_iff_byteSize_lt (ht'.symm.trans ht)
      have hne : start + slice.byteSize ≠ start + other.byteSize := by omega
      simp only [Preferred, he, ↓reduceIte] at h
      simp only [offsetsFrom, Precedes, hne, ↓reduceIte]
      cases segment with
      | capture kind => cases kind <;> simp [Segment.prefersLong] at h ⊢ <;> omega
      | _ => simp [Segment.prefersLong] at h ⊢; omega

theorem spansBetween_offsetsFrom (start : Nat) (slices : List Text) :
    spansBetween (start :: offsetsFrom start slices) = spansFrom start slices := by
  induction slices generalizing start with
  | nil => rfl
  | cons slice slices ih => simp [offsetsFrom, spansBetween, spansFrom, ih]

theorem captureSpans_eq_filter (segments : List Segment) (spans : List Span) :
    captureSpans segments spans =
      ((segments.zip spans).filter fun slot => slot.1.isCapture).map Prod.snd := by
  induction segments generalizing spans with
  | nil => rfl
  | cons segment segments ih =>
    cases spans with
    | nil => rfl
    | cons span spans => cases h : segment.isCapture <;> simp [captureSpans, h, ih]

theorem getLastD_offsetsFrom (start : Nat) (slices : List Text) :
    (offsetsFrom start slices).getLastD start = start + Text.byteSize slices.flatten := by
  induction slices generalizing start with
  | nil => simp [offsetsFrom, Text.byteSize]
  | cons slice slices ih =>
    simp only [offsetsFrom, List.getLastD_cons, ih, List.flatten_cons, Text.byteSize_append]
    omega

theorem captureSpans_length {segments : List Segment} {earlier : Option Char} {text : Text}
    {slices : List Text} (start : Nat) (h : Admitted segments earlier text slices) :
    (captureSpans segments (spansFrom start slices)).length =
      segments.countP Segment.isCapture := by
  induction segments generalizing earlier text slices start with
  | nil => simp [captureSpans]
  | cons segment segments ih =>
    obtain ⟨slice, rest, more, rfl, -, -, h⟩ := h
    cases hc : segment.isCapture <;>
      simp [spansFrom, captureSpans, hc, ih (start + slice.byteSize) h]

/-- A search at a place succeeds exactly when the segments divide the text behind it, and then
answers the first division: the range reaches from the first offset to the last, the captures are
the spans of the capture slots. -/
theorem matchAt_first_division (p : Pattern) (text : Text) (start : Nat)
    (boundary : text.IsBoundary start) :
    ((p.matchAt text start).isSome = true ↔ ∃ cuts, Divides text p.segments (start :: cuts)) ∧
      ∀ found, p.matchAt text start = some found →
        ∃ cuts, Divides text p.segments (start :: cuts) ∧
          (∀ others, Divides text p.segments (start :: others) →
            others = cuts ∨ Precedes p.segments (start :: cuts) (start :: others)) ∧
          found.range = ⟨start, cuts.getLastD start⟩ ∧
          found.captures = slotSpans p.segments (start :: cuts) ∧
          found.captures.length = p.captureCount := by
  obtain ⟨before, after, rfl, rfl⟩ := boundary
  have first := matchSlices_first p.segments before.getLast? after
  have eq : p.matchAt (before ++ after) before.byteSize =
      (p.matchHere before.getLast? after).map (p.toMatch before.byteSize) := by
    simp only [Pattern.matchAt, Text.splitAtByte_byteSize, Option.bind_eq_bind, Option.bind_some]
    cases p.matchHere before.getLast? after <;> rfl
  rw [eq, Pattern.matchHere]
  cases hm : matchSlices p.segments before.getLast? after with
  | none =>
    rw [hm] at first
    refine ⟨?_, by simp⟩
    simp only [Option.map_none, Option.isSome_none, Bool.false_eq_true, false_iff]
    rintro ⟨cuts, h⟩
    obtain ⟨slices, ha, -⟩ := (divides_iff_admitted ..).mp h
    exact first slices ha
  | some slices =>
    rw [hm] at first
    obtain ⟨ha, best⟩ := first
    have hd := (divides_iff_admitted ..).mpr ⟨slices, ha, rfl⟩
    refine ⟨⟨fun _ => ⟨_, hd⟩, fun _ => rfl⟩, ?_⟩
    rintro found hf
    obtain rfl := Option.some.inj hf
    refine ⟨_, hd, ?_, ?_, ?_, ?_⟩
    · rintro others ho
      obtain ⟨slices', ha', rfl⟩ := (divides_iff_admitted ..).mp ho
      rcases best slices' ha' with rfl | hp
      · exact Or.inl rfl
      · exact Or.inr (precedes_of_preferred _ ha ha' hp)
    · rw [getLastD_offsetsFrom]
      simp [Pattern.toMatch, Found.whole, Text.byteSize]
    · simp [Pattern.toMatch, Text.byteSize, slotSpans, spansBetween_offsetsFrom,
        captureSpans_eq_filter]
    · simp [Pattern.toMatch, Text.byteSize, captureSpans_length _ ha, Pattern.captureCount]

/-- A call behind a character of two bytes, with blanks at both ends of its arguments. -/
theorem matchAt_first_division_call :
    let p : Pattern := ⟨[.literal "@use".toList, .blanks, .literal "(".toList,
      .capture .balanced, .literal ")".toList, .blanks]⟩
    let text := "é@use (f(1))  x".toList
    Text.IsBoundary text 2 ∧ p.matchAt text 2 = some ⟨⟨2, 15⟩, [⟨8, 12⟩]⟩ ∧
      ∃ cuts, Divides text p.segments (2 :: cuts) ∧
        (∀ others, Divides text p.segments (2 :: others) →
          others = cuts ∨ Precedes p.segments (2 :: cuts) (2 :: others)) ∧
        (15 : Nat) = cuts.getLastD 2 := by
  intro p text
  have boundary : Text.IsBoundary text 2 :=
    ⟨['é'], "@use (f(1))  x".toList, by decide +kernel, by decide +kernel⟩
  have found : p.matchAt text 2 = some ⟨⟨2, 15⟩, [⟨8, 12⟩]⟩ := by decide +kernel
  obtain ⟨cuts, hd, best, range, -⟩ := (matchAt_first_division p text 2 boundary).2 _ found
  exact ⟨boundary, found, cuts, hd, best, (Span.mk.inj range).2⟩

end Stencil
