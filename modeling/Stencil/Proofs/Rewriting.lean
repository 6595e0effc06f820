import Stencil.Pattern.Replacement
import Stencil.Proofs.Division
import Stencil.Proofs.Trim

/-!
# Rewriting a text by a pattern

What replacing all matches does to a text that is made of pieces. Proved here:

* `matchSlices_cons`: a match is put together from the slice of its first segment and a match of the
  others, when no better slice of the first segment has one;
* `replaceFrom_takes` and `replaceFrom_pass`: a match is replaced as a whole, and a text in which no
  match starts is passed over;
* `Passes`: no literal text starts in a piece, whatever follows the piece. Pieces that are passed
  over can be put one after the other (`Passes.append`);
* `Text.cut?_eq_some_iff`: a text is cut at the place of a mark in front of which the mark does not
  stand.
-/

namespace Stencil

/-! ## Matches -/

theorem exists_admitted_of_matchSlices {segments : List Segment} {earlier : Option Char}
    {text : Text} (h : matchSlices segments earlier text ≠ none) :
    ∃ slices, Admitted segments earlier text slices := by
  have first := matchSlices_first segments earlier text
  cases hm : matchSlices segments earlier text with
  | none => exact absurd hm h
  | some slices =>
    rw [hm] at first
    exact ⟨slices, first.1⟩

/-- The slice that is preferred among those behind which the other segments match. -/
theorem matchSlices_cons {segment : Segment} {segments : List Segment} {earlier : Option Char}
    {slice rest : Text} {more : List Text} (admitted : segment.Admits earlier slice)
    (found : matchSlices segments (Text.lastOr earlier slice) rest = some more)
    (best : ∀ other behind, slice ++ rest = other ++ behind → segment.Admits earlier other →
      matchSlices segments (Text.lastOr earlier other) behind ≠ none →
      if segment.prefersLong then other.length ≤ slice.length else slice.length ≤ other.length) :
    matchSlices (segment :: segments) earlier (slice ++ rest) = some (slice :: more) := by
  have chosen := matchSlices_chosen segment segments earlier (slice ++ rest)
  have result : slicesAfter segments earlier slice rest = some (slice :: more) := by
    simp [slicesAfter, found]
  cases hm : matchSlices (segment :: segments) earlier (slice ++ rest) with
  | none =>
    rw [hm] at chosen
    have := chosen slice rest rfl admitted
    simp [result] at this
  | some answer =>
    rw [hm] at chosen
    obtain ⟨other, behind, ht, ho, hr, hmax⟩ := chosen
    have goesOn : matchSlices segments (Text.lastOr earlier other) behind ≠ none := by
      intro hn
      simp [slicesAfter, hn] at hr
    have hle := best other behind ht ho goesOn
    have hge := hmax slice rest rfl admitted (by simp [result])
    have hlen : slice.length = other.length := by
      cases hl : segment.prefersLong <;> simp only [hl, Bool.false_eq_true, ↓reduceIte] at hle hge <;>
        omega
    obtain ⟨rfl, rfl⟩ := List.append_inj ht hlen
    rw [← hr, result]

theorem matchSlices_literal {mark : Text} {segments : List Segment} {earlier : Option Char}
    {rest : Text} {more : List Text}
    (found : matchSlices segments (Text.lastOr earlier mark) rest = some more) :
    matchSlices (.literal mark :: segments) earlier (mark ++ rest) = some (mark :: more) := by
  simp [matchSlices, Text.dropStart?_append, found]

theorem length_le_of_blank {blank rest other behind : Text} (hr : rest.NoBlankFirst)
    (h : blank ++ rest = other ++ behind) (ho : other.AllBlank) :
    other.length ≤ blank.length := by
  rcases Text.prefix_total h with ⟨u, rfl, rfl⟩ | ⟨u, rfl, -⟩
  · cases u with
    | nil => simp
    | cons c u =>
      have hb := hr c rfl
      rw [ho c (by simp)] at hb
      simp at hb
  · simp

/-- A run of blanks takes all of them. -/
theorem matchSlices_blanks {blank : Text} {segments : List Segment} {earlier : Option Char}
    {rest : Text} {more : List Text} (hb : blank.AllBlank)
    (hr : rest.NoBlankFirst)
    (found : matchSlices segments (Text.lastOr earlier blank) rest = some more) :
    matchSlices (.blanks :: segments) earlier (blank ++ rest) = some (blank :: more) :=
  matchSlices_cons hb found fun _ _ h ho _ => length_le_of_blank hr h ho

/-- A run of blanks and a mark. -/
theorem matchSlices_blanks_literal {blank mark rest : Text} {earlier : Option Char}
    (hb : blank.AllBlank) (hm : Text.NoBlankFirst (mark ++ rest)) :
    matchSlices [.blanks, .literal mark] earlier (blank ++ (mark ++ rest)) = some [blank, mark] :=
  matchSlices_blanks hb hm (matchSlices_literal rfl)

theorem exists_blanks_of_matchSlices {mark text : Text} {earlier : Option Char}
    (h : matchSlices [.blanks, .literal mark] earlier text ≠ none) :
    ∃ blank rest, Text.AllBlank blank ∧ text = blank ++ (mark ++ rest) := by
  obtain ⟨slices, blank, behind, -, -, ht, hb, mark', rest, -, -, hrest, rfl, -⟩ :=
    exists_admitted_of_matchSlices h
  exact ⟨blank, rest, hb, by rw [ht, hrest]⟩

theorem length_le_of_not_shorter {slice rest other behind : Text}
    (h : slice ++ rest = other ++ behind)
    (none_shorter : ∀ u, slice = other ++ u → behind = u ++ rest → u = []) :
    slice.length ≤ other.length := by
  rcases Text.prefix_total h with ⟨u, rfl, -⟩ | ⟨u, hs, hb⟩
  · simp
  · have hu := none_shorter u hs hb
    simp [hs, hu]

/-- A balanced slot in front of a closing parenthesis ends where its text ends. -/
theorem matchSlices_balanced {args : Text} {segments : List Segment} {earlier : Option Char}
    {rest : Text} {more : List Text}
    (admitted : (Segment.capture .balanced).Admits earlier args)
    (found : matchSlices (.literal [')'] :: segments) (Text.lastOr earlier args) (')' :: rest) =
      some more) :
    matchSlices (.capture .balanced :: .literal [')'] :: segments) earlier (args ++ ')' :: rest) =
      some (args :: more) := by
  refine matchSlices_cons admitted found fun other behind h ho goesOn => ?_
  refine length_le_of_not_shorter h fun u hu hb => ?_
  obtain ⟨slices, hs⟩ := exists_admitted_of_matchSlices goesOn
  obtain ⟨mark, behind', -, -, hbehind, rfl, -⟩ := hs
  cases u with
  | nil => rfl
  | cons c u =>
    -- A parenthesis that the slot could end at would close nothing.
    obtain rfl : c = ')' := by simpa [hbehind] using congrArg List.head? hb.symm
    have stray := admitted.2.2 other ')' u hu
    rw [ho.2.1] at stray
    simp [Scan.stray, Scan.isCloser] at stray

/-! ## Replacing -/

namespace Pattern

variable (p : Pattern) (r : Replacement)

theorem replaceFrom_skip (earlier : Option Char) (skipped rest : Text) :
    p.replaceFrom r skipped.length earlier (skipped ++ rest) =
      p.replaceFrom r 0 (Text.lastOr earlier skipped) rest := by
  induction skipped generalizing earlier with
  | nil => simp [Text.lastOr]
  | cons c skipped ih =>
    rw [List.length_cons, List.cons_append, replaceFrom, ih, Text.lastOr_cons]

/-- A match is replaced as a whole. -/
theorem replaceFrom_match {earlier : Option Char} {slices : List Text} {whole rest : Text}
    (hw : slices.flatten = whole) (hne : whole ≠ [])
    (h : matchSlices p.segments earlier (whole ++ rest) = some slices) :
    p.replaceFrom r 0 earlier (whole ++ rest) =
      r.expand whole (captureSlices p.segments slices) ++
        p.replaceFrom r 0 (Text.lastOr earlier whole) rest := by
  subst hw
  cases hf : slices.flatten with
  | nil => exact absurd hf hne
  | cons c whole =>
    rw [hf] at h
    rw [List.cons_append] at h ⊢
    rw [replaceFrom]
    simp only [h, hf, List.length_cons]
    rw [replaceFrom_skip, Text.lastOr_cons]

/-- Where `whole` stands in front of `rest`, the pattern matches it and captures `captures`. -/
def Takes (whole rest : Text) (captures : List Text) : Prop :=
  ∀ earlier, ∃ slices, matchSlices p.segments earlier (whole ++ rest) = some slices ∧
    slices.flatten = whole ∧ captureSlices p.segments slices = captures

theorem replaceFrom_takes {whole rest : Text} {captures : List Text}
    (h : p.Takes whole rest captures) (hne : whole ≠ []) (earlier : Option Char) :
    p.replaceFrom r 0 earlier (whole ++ rest) =
      r.expand whole captures ++ p.replaceFrom r 0 (Text.lastOr earlier whole) rest := by
  obtain ⟨slices, hm, hw, rfl⟩ := h earlier
  exact p.replaceFrom_match r hw hne hm

/-- A text in which no match starts is passed over. -/
theorem replaceFrom_pass {passed rest : Text} (earlier : Option Char)
    (h : ∀ a c b, passed = a ++ c :: b → ∀ earlier,
      matchSlices p.segments earlier (c :: b ++ rest) = none) :
    p.replaceFrom r 0 earlier (passed ++ rest) =
      passed ++ p.replaceFrom r 0 (Text.lastOr earlier passed) rest := by
  induction passed generalizing earlier with
  | nil => simp [Text.lastOr]
  | cons c passed ih =>
    have here := h [] c passed rfl earlier
    rw [List.cons_append] at here ⊢
    rw [replaceFrom, here]
    simp only
    rw [ih (some c) fun a d b hab => h (c :: a) d b (by rw [hab, List.cons_append]),
      Text.lastOr_cons]
    rfl

end Pattern

/-! ## The first place of a mark -/

/-- A mark that starts in a piece without it would go on with its first character, when that comes
behind the piece. -/
theorem not_prefix_of_absent (first : Char) (mark : Text) {piece rest : Text}
    (once : first ∉ mark) (h : ¬ first :: mark <:+: piece)
    (hr : ∀ c, rest.head? = some c → c = first) :
    ∀ a c b, piece = a ++ c :: b → ¬ first :: mark <+: c :: b ++ rest := by
  rintro a c b rfl ⟨behind, hp⟩
  rcases List.append_eq_append_iff.mp hp with ⟨u, hu, -⟩ | ⟨u, hu, hrest⟩
  · exact h ⟨a, u, by rw [hu, List.append_assoc]⟩
  · cases u with
    | nil => exact h ⟨a, [], by rw [hu]; simp⟩
    | cons d u =>
      obtain rfl : d = first := hr d (by rw [hrest]; rfl)
      have later : mark = b ++ d :: u := (List.cons.inj hu).2
      exact once (by rw [later]; simp)

namespace Text

/-- The first place of a mark: it stands at no place before. -/
theorem eq_append_of_cut? {mark text before after : Text}
    (h : cut? mark text = some (before, after)) :
    text = before ++ (mark ++ after) ∧
      ∀ a c b, before = a ++ c :: b → ¬ mark <+: c :: b ++ (mark ++ after) := by
  induction text generalizing before with
  | nil =>
    obtain ⟨rest, hd, hp⟩ := Option.map_eq_some_iff.mp h
    obtain ⟨rfl, rfl⟩ := Prod.mk.inj hp
    have same := eq_append_of_dropStart? hd
    exact ⟨same, by simp⟩
  | cons c rest ih =>
    rw [cut?] at h
    cases hd : dropStart? mark (c :: rest) with
    | some behind =>
      rw [hd] at h
      obtain ⟨rfl, rfl⟩ := Prod.mk.inj (Option.some.inj h)
      have same := eq_append_of_dropStart? hd
      exact ⟨same, by simp⟩
    | none =>
      rw [hd] at h
      obtain ⟨⟨front, behind⟩, hc, hp⟩ := Option.map_eq_some_iff.mp h
      obtain ⟨rfl, rfl⟩ := Prod.mk.inj hp
      obtain ⟨rfl, absent⟩ := ih hc
      refine ⟨rfl, fun a d b hab => ?_⟩
      cases a with
      | nil =>
        obtain ⟨rfl, rfl⟩ := List.cons.inj hab
        rintro ⟨tail, same⟩
        rw [List.cons_append] at same
        rw [← same, dropStart?_append] at hd
        cases hd
      | cons e a => exact absent a d b (List.cons.inj hab).2

theorem not_prefix_of_cut?_eq_none {mark text : Text} (h : cut? mark text = none)
    (before after : Text) (same : text = before ++ after) : ¬ mark <+: after := by
  rintro ⟨rest, rfl⟩
  induction text generalizing before with
  | nil =>
    obtain ⟨rfl, hm⟩ := List.append_eq_nil_iff.mp same.symm
    rw [cut?, ← hm, dropStart?_append] at h
    cases h
  | cons c text ih =>
    rw [cut?] at h
    cases hd : dropStart? mark (c :: text) with
    | some behind => simp [hd] at h
    | none =>
      rw [hd] at h
      cases before with
      | nil =>
        rw [same, List.nil_append, dropStart?_append] at hd
        cases hd
      | cons d before =>
        obtain ⟨rfl, ht⟩ := List.cons.inj same
        exact ih (Option.map_eq_none_iff.mp h) before ht

theorem cut?_of_first {mark before after : Text}
    (h : ∀ a c b, before = a ++ c :: b → ¬ mark <+: c :: b ++ (mark ++ after)) :
    cut? mark (before ++ (mark ++ after)) = some (before, after) := by
  induction before with
  | nil =>
    have found := dropStart?_append mark after
    rw [List.nil_append]
    generalize mark ++ after = text at found
    cases text <;> simp [cut?, found]
  | cons c before ih =>
    have here := dropStart?_eq_none (h [] c before rfl)
    rw [List.cons_append] at here ⊢
    rw [cut?, here, ih fun a d b hd => h (c :: a) d b (by rw [hd]; rfl)]
    rfl

/-- The place that is found is the one in front of which there is no mark. -/
theorem cut?_eq_some_iff (first : Char) (mark : Text) (once : first ∉ mark)
    {text before after : Text} :
    cut? (first :: mark) text = some (before, after) ↔
      text = before ++ (first :: mark ++ after) ∧ ¬ first :: mark <:+: before := by
  constructor
  · intro h
    obtain ⟨same, absent⟩ := eq_append_of_cut? h
    refine ⟨same, ?_⟩
    rintro ⟨a, b, rfl⟩
    exact absent a first (mark ++ b) (by simp) ⟨b ++ (first :: mark ++ after), by simp⟩
  · rintro ⟨rfl, free⟩
    exact cut?_of_first (not_prefix_of_absent first mark once free (by simp))

theorem cut?_eq_none_iff {mark text : Text} : cut? mark text = none ↔ ¬ mark <:+: text := by
  constructor
  · rintro h ⟨a, b, same⟩
    exact not_prefix_of_cut?_eq_none h a (mark ++ b) (by rw [← same, List.append_assoc])
      ⟨b, rfl⟩
  · intro h
    cases hc : cut? mark text with
    | none => rfl
    | some parts =>
      obtain ⟨before, after⟩ := parts
      obtain ⟨same, -⟩ := eq_append_of_cut? hc
      exact absurd ⟨before, after, by rw [same, List.append_assoc]⟩ h

end Text

/-! ## Pieces -/

/-- The mark starts nowhere in a piece of text, whatever comes behind the piece. -/
def Passes (mark piece : Text) : Prop :=
  ∀ a c b rest, piece = a ++ c :: b → ¬ mark <+: c :: b ++ rest

theorem Passes.nil (mark : Text) : Passes mark [] := by
  intro a c b rest h
  simp at h

theorem Passes.tail {mark piece : Text} {c : Char} (h : Passes mark (c :: piece)) :
    Passes mark piece := by
  rintro a d b rest rfl
  exact h (c :: a) d b rest rfl

theorem Passes.append {mark a b : Text} (ha : Passes mark a) (hb : Passes mark b) :
    Passes mark (a ++ b) := by
  intro before c after rest h
  rcases List.append_eq_append_iff.mp h with ⟨u, rfl, hu⟩ | ⟨u, rfl, hu⟩
  · exact hb u c after rest hu
  · cases u with
    | nil => exact hb [] c after rest (by simpa using hu.symm)
    | cons d u =>
      obtain ⟨rfl, rfl⟩ := List.cons.inj hu
      have := ha before c u (b ++ rest) rfl
      simpa using this

/-- A piece without the first character of the mark is passed over. -/
theorem Passes.of_notMem {first : Char} {mark piece : Text} (h : first ∉ piece) :
    Passes (first :: mark) piece := by
  rintro a c b rest rfl ⟨behind, hb⟩
  obtain rfl : first = c := by simpa using congrArg List.head? hb
  simp at h

/-- A piece that starts with another mark than the one that is looked for, of which only the first
character can open a mark. -/
theorem Passes.of_other {first : Char} {mark other piece : Text} (ho : first ∉ other)
    (hp : first ∉ piece) (left : ¬ mark <+: other) (right : ¬ other <+: mark) :
    Passes (first :: mark) (first :: other ++ piece) := by
  intro a c b rest h
  cases a with
  | nil =>
    obtain ⟨rfl, rfl⟩ := List.cons.inj h
    intro hm
    have hm' : mark <+: other ++ (piece ++ rest) := by
      simpa [List.cons_prefix_cons] using hm
    rcases List.prefix_or_prefix_of_prefix hm' (List.prefix_append other _) with hl | hr
    · exact left hl
    · exact right hr
  | cons d a =>
    obtain ⟨rfl, ht⟩ := List.cons.inj h
    have free : first ∉ other ++ piece := by simp [ho, hp]
    exact Passes.of_notMem free a c b rest ht

/-- A piece without a mark of two characters, in front of a character that is neither. -/
theorem Passes.of_pair {first second last : Char} {piece : Text} (h : ¬ [first, second] <:+: piece)
    (hf : first ≠ last) (hs : second ≠ last) : Passes [first, second] (piece ++ [last]) := by
  rintro a c b rest hp ⟨behind, hb⟩
  simp only [List.cons_append, List.nil_append, List.cons.injEq] at hb
  obtain ⟨rfl, hb⟩ := hb
  cases b with
  | nil =>
    -- The mark would start at the last character.
    have := congrArg List.getLast? hp
    simp only [List.getLast?_append, List.getLast?_singleton, Option.some_or,
      Option.some.injEq] at this
    exact hf this.symm
  | cons d b =>
    simp only [List.cons_append, List.cons.injEq] at hb
    obtain ⟨rfl, -⟩ := hb
    rcases List.eq_nil_or_concat b with rfl | ⟨b, e, rfl⟩
    · have := congrArg List.getLast? hp
      simp only [List.getLast?_append, List.getLast?_singleton, List.getLast?_cons_cons,
        Option.some_or, Option.some.injEq] at this
      exact hs this.symm
    · refine h ⟨a, b, ?_⟩
      have hsplit : piece ++ [last] = (a ++ [first, second] ++ b) ++ [e] := by
        rw [hp]
        simp
      exact (List.append_inj_left' hsplit rfl).symm

/-- A piece without a mark of two characters, in front of something without either. -/
theorem Passes.of_pair_append {first second : Char} {piece behind : Text}
    (h : ¬ [first, second] <:+: piece) (hn : behind ≠ []) (hf : first ∉ behind)
    (hs : second ∉ behind) : Passes [first, second] (piece ++ behind) := by
  cases behind with
  | nil => exact absurd rfl hn
  | cons last behind =>
    simp only [List.mem_cons, not_or] at hf hs
    have := (Passes.of_pair h hf.1 hs.1).append (b := behind) (.of_notMem hf.2)
    simpa using this

theorem Passes.absent {mark piece : Text} (hn : mark ≠ []) (h : Passes mark piece) :
    ¬ mark <:+: piece := by
  rintro ⟨before, after, rfl⟩
  cases mark with
  | nil => exact hn rfl
  | cons c mark =>
    exact h before c (mark ++ after) [] (by simp) ⟨after, by simp⟩

theorem matchSlices_eq_none_of_not_prefix {mark text : Text} {segments : List Segment}
    {earlier : Option Char} (h : ¬ mark <+: text) :
    matchSlices (.literal mark :: segments) earlier text = none := by
  simp [matchSlices, Text.dropStart?_eq_none h]

namespace Pattern

variable {p : Pattern} {mark : Text} {segments : List Segment}

theorem replaceFrom_passes (hp : p.segments = .literal mark :: segments) (r : Replacement)
    {piece : Text} (h : Passes mark piece) (earlier : Option Char) (rest : Text) :
    p.replaceFrom r 0 earlier (piece ++ rest) =
      piece ++ p.replaceFrom r 0 (Text.lastOr earlier piece) rest := by
  refine p.replaceFrom_pass r earlier fun a c b hab e => ?_
  rw [hp]
  exact matchSlices_eq_none_of_not_prefix (h a c b rest hab)

theorem replaceFrom_nil (hp : p.segments = .literal mark :: segments) (hm : mark ≠ [])
    (r : Replacement) (earlier : Option Char) : p.replaceFrom r 0 earlier [] = [] := by
  have h : matchSlices p.segments earlier [] = none := by
    rw [hp]
    exact matchSlices_eq_none_of_not_prefix (by simpa using hm)
  simp [replaceFrom, h]

/-- A text that has the mark nowhere is not changed. -/
theorem replaceAll_absent (hp : p.segments = .literal mark :: segments) (hm : mark ≠ [])
    (r : Replacement) {text : Text} (h : ¬ mark <:+: text) : p.replaceAll r text = text := by
  have nowhere (a : Text) (c : Char) (b : Text) (hab : text = a ++ c :: b)
      (earlier : Option Char) : matchSlices p.segments earlier (c :: b ++ []) = none := by
    rw [hp, List.append_nil]
    refine matchSlices_eq_none_of_not_prefix fun starts => h ?_
    rw [hab]
    exact starts.isInfix.trans (List.suffix_append a (c :: b)).isInfix
  have pass := p.replaceFrom_pass r none nowhere
  rw [List.append_nil, replaceFrom_nil hp hm, List.append_nil] at pass
  exact pass

end Pattern

end Stencil
