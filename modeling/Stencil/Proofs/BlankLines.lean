import Mathlib.Data.List.DropRight
import Stencil.Proofs.Rewriting

/-!
# Blank lines

The last built-in rule takes blanks and a line break behind them out at the start of a line. One match
takes blank lines that follow one another and leaves the indentation of the line behind them.

Proved here, for every text:

* `dropBlankLines_blanks`: of a run of blanks at the start of a line is left what stands behind its last
  line break;
* `dropBlankLines_ofLines`: lines of nothing but blanks are left out and the other ones stay, but for
  blanks at their start up to a carriage return that no line feed follows;
* `dropBlankLines_twice`: so there is nothing left to take out.
-/

namespace Stencil

/-! ## Lines -/

namespace Text

/-- Lines that a line feed ends, and a last piece that none ends. -/
def ofLines (lines : List Text) (last : Text) : Text := lines.flatMap (· ++ ['\n']) ++ last

/-- What a run of blanks has behind its last line break. -/
def indentOf (blanks : Text) : Text := blanks.rtakeWhile fun c => !isBreak c

/-- What is left of a line when blanks at its start are dropped up to the last carriage return. -/
def keptLine (line : Text) : Text := indentOf (line.takeWhile isBlank) ++ line.trimStart

/-- Blanks on one line. -/
structure IsIndent (text : Text) : Prop where
  blank : text.AllBlank
  noBreak : ∀ c ∈ text, isBreak c = false

theorem IsIndent.nil : IsIndent [] := ⟨.nil, by simp⟩

theorem ofLines_cons (line : Text) (lines : List Text) (last : Text) :
    ofLines (line :: lines) last = line ++ '\n' :: ofLines lines last := by
  simp [ofLines]

/-- Every text is made of lines. -/
theorem exists_ofLines (text : Text) :
    ∃ lines last, (∀ line ∈ lines, '\n' ∉ line) ∧ '\n' ∉ last ∧ text = ofLines lines last := by
  induction text with
  | nil => exact ⟨[], [], by simp, by simp, rfl⟩
  | cons c rest ih =>
    obtain ⟨lines, last, hlines, hlast, rfl⟩ := ih
    by_cases hc : c = '\n'
    · subst hc
      exact ⟨[] :: lines, last, by simpa using hlines, hlast, (ofLines_cons [] lines last).symm⟩
    · cases lines with
      | nil => exact ⟨[], c :: last, by simp, by simp [hlast, Ne.symm hc], rfl⟩
      | cons line lines =>
        refine ⟨(c :: line) :: lines, last, ?_, hlast, by simp [ofLines_cons]⟩
        simpa [Ne.symm hc] using hlines

/-! ## Indentation -/

theorem indentOf_append_break (run blanks : Text) {c : Char} (hc : isBreak c = true) :
    indentOf (run ++ c :: blanks) = indentOf blanks := by
  simp only [indentOf, List.rtakeWhile, List.reverse_append, List.reverse_cons, List.append_assoc]
  rw [List.takeWhile_append]
  split
  · next all =>
    have whole : blanks.reverse.takeWhile (fun c => !isBreak c) = blanks.reverse :=
      (List.takeWhile_prefix _).eq_of_length all
    simp [hc, whole]
  · rfl

theorem indentOf_eq_self {blanks : Text} (h : ∀ c ∈ blanks, isBreak c = false) :
    indentOf blanks = blanks :=
  List.rtakeWhile_eq_self_iff.mpr (by simpa using h)

theorem isIndent_indentOf {blanks : Text} (h : blanks.AllBlank) : (indentOf blanks).IsIndent where
  blank c hc := h c ((List.rtakeWhile_suffix _ _).mem hc)
  noBreak c hc := by simpa using List.mem_rtakeWhile_imp hc

/-- Blanks are an indentation, or a last line break stands in front of it. -/
theorem eq_indentOf_or_exists (blanks : Text) :
    blanks = indentOf blanks ∨
      ∃ run c, isBreak c = true ∧ blanks = run ++ c :: indentOf blanks := by
  have cut : blanks.rdropWhile (fun c => !isBreak c) ++ indentOf blanks = blanks :=
    List.rdropWhile_append_rtakeWhile ..
  rcases List.eq_nil_or_concat (blanks.rdropWhile fun c => !isBreak c) with hnil | ⟨run, c, hrun⟩
  · left
    rw [hnil, List.nil_append] at cut
    exact cut.symm
  · right
    have hne : blanks.rdropWhile (fun c => !isBreak c) ≠ [] := by simp [hrun]
    have last := List.rdropWhile_last_not _ _ hne
    refine ⟨run, c, by simpa [hrun] using last, ?_⟩
    rw [hrun] at cut
    simpa using cut.symm

theorem takeWhile_append_trimStart (line : Text) :
    line.takeWhile isBlank ++ line.trimStart = line := List.takeWhile_append_dropWhile

theorem allBlank_takeWhile (line : Text) : AllBlank (line.takeWhile isBlank) :=
  fun _ hc => List.mem_takeWhile_imp hc

theorem all_isBlank_iff (line : Text) : line.all isBlank = true ↔ line.trimStart = [] := by
  rw [trimStart, List.dropWhile_eq_nil_iff, List.all_eq_true]

/-- The blanks at the start are told from the rest by its first character. -/
theorem keptLine_append {blanks solid : Text} (hb : blanks.AllBlank) (hs : solid.NoBlankFirst) :
    keptLine (blanks ++ solid) = indentOf blanks ++ solid := by
  have none : solid.takeWhile isBlank = [] := by
    cases solid with
    | nil => rfl
    | cons c solid => simp [hs c rfl]
  rw [keptLine, trimStart_blanks_append hb, trimStart_eq_self hs, List.takeWhile_append_of_pos hb,
    none, List.append_nil]

theorem keptLine_keptLine (line : Text) : keptLine (keptLine line) = keptLine line := by
  have indent := isIndent_indentOf (allBlank_takeWhile line)
  have again := keptLine_append indent.blank (noBlankFirst_trimStart line)
  rwa [indentOf_eq_self indent.noBreak] at again

theorem all_isBlank_keptLine (line : Text) : (keptLine line).all isBlank = line.all isBlank := by
  have indent := isIndent_indentOf (allBlank_takeWhile line)
  rw [Bool.eq_iff_iff, all_isBlank_iff, all_isBlank_iff, keptLine,
    trimStart_blanks_append indent.blank, trimStart_eq_self (noBlankFirst_trimStart line)]

theorem mem_of_mem_keptLine {line : Text} {c : Char} (h : c ∈ keptLine line) : c ∈ line := by
  rw [← takeWhile_append_trimStart line]
  rcases List.mem_append.mp h with h | h
  · exact List.mem_append_left _ ((List.rtakeWhile_suffix _ _).mem h)
  · exact List.mem_append_right _ h

/-- A line without a line break among the blanks at its start stays. -/
theorem keptLine_eq_self {line : Text} (h : ∀ c ∈ line.takeWhile isBlank, isBreak c = false) :
    keptLine line = line := by
  rw [keptLine, indentOf_eq_self h, takeWhile_append_trimStart]

end Text

/-! ## Matches -/

def Pattern.blankLine : Pattern := ⟨[.lineStart, .blanks, .lineBreaks]⟩

/-- What is left of a text when its blank lines are taken out; `earlier` is the character before it. -/
def dropBlankLines (earlier : Option Char) (text : Text) : Text :=
  Pattern.blankLine.replaceFrom [] 0 earlier text

/-- A line starts behind this character. -/
def LineStart (earlier : Option Char) : Prop := earlier = none ∨ earlier = some '\n'

section Matches

variable {earlier : Option Char} {run indent rest tail : Text} {c : Char}

/-- Blanks go on to no line break from an indentation. -/
theorem Text.IsIndent.isBreak_eq_false (hi : indent.IsIndent) (hr : rest.NoBlankFirst)
    (same : indent ++ rest = run ++ c :: tail) (hb : run.AllBlank) : Text.isBreak c = false := by
  by_contra hc
  rw [Bool.not_eq_false] at hc
  have blank : Text.AllBlank (run ++ [c]) := hb.append (.cons (Text.isBlank_of_isBreak hc) .nil)
  have cut : indent ++ rest = (run ++ [c]) ++ tail := by simpa using same
  have within : run ++ [c] <+: indent :=
    List.prefix_of_prefix_length_le (cut ▸ List.prefix_append _ tail) (List.prefix_append _ rest)
      (length_le_of_blank hr cut blank)
  have inside := hi.noBreak c (within.mem (by simp))
  rw [hc] at inside
  cases inside

/-- Blanks that a line break follows end before the last line break. -/
theorem length_le_of_isBreak {other : Text} {d : Char} (hi : indent.IsIndent)
    (hr : rest.NoBlankFirst) (same : run ++ c :: (indent ++ rest) = other ++ d :: tail)
    (ho : other.AllBlank) (hd : Text.isBreak d = true) : other.length ≤ run.length := by
  rcases Text.prefix_total same with ⟨u, rfl, hu⟩ | ⟨u, rfl, -⟩
  · cases u with
    | nil => simp
    | cons e u =>
      obtain ⟨-, hu⟩ := List.cons.inj hu
      have blank : Text.AllBlank u := fun f hf => ho f (by simp [hf])
      have := hi.isBreak_eq_false hr hu blank
      rw [hd] at this
      cases this
  · simp

theorem exists_break_of_matchSlices {text : Text}
    (h : matchSlices [.lineBreaks] earlier text ≠ none) :
    ∃ c tail, text = c :: tail ∧ Text.isBreak c = true := by
  obtain ⟨slices, breaks, tail, -, -, rfl, ⟨hne, hchars⟩, -⟩ := exists_admitted_of_matchSlices h
  cases breaks with
  | nil => exact absurd rfl hne
  | cons c breaks =>
    exact ⟨c, breaks ++ tail, rfl, by simpa [Text.isBreak] using hchars c List.mem_cons_self⟩

theorem matchSlices_sameLine (h : ¬ LineStart earlier) (text : Text) :
    matchSlices Pattern.blankLine.segments earlier text = none := if_neg h

/-- An indentation is no blank line. -/
theorem matchSlices_indent (hi : indent.IsIndent) (hr : rest.NoBlankFirst)
    (earlier : Option Char) :
    matchSlices Pattern.blankLine.segments earlier (indent ++ rest) = none := by
  by_contra hm
  obtain ⟨slices, start, text, -, -, htext, ⟨rfl, -⟩, run, text', -, -, rfl, hb, breaks, tail, -, -,
    rfl, ⟨hne, hchars⟩, -⟩ := exists_admitted_of_matchSlices hm
  cases breaks with
  | nil => exact hne rfl
  | cons c breaks =>
    have := hi.isBreak_eq_false hr (by simpa using htext) hb
    rcases hchars c List.mem_cons_self with rfl | rfl <;> cases this

theorem matchSlices_noBlankFirst (hr : rest.NoBlankFirst) (earlier : Option Char) :
    matchSlices Pattern.blankLine.segments earlier rest = none := matchSlices_indent .nil hr earlier

/-- A match goes to the last line break of the blanks it starts with. -/
theorem matchSlices_blankLine (he : LineStart earlier) (hb : run.AllBlank)
    (hc : Text.isBreak c = true) (hi : indent.IsIndent) (hr : rest.NoBlankFirst) :
    matchSlices Pattern.blankLine.segments earlier (run ++ ([c] ++ (indent ++ rest))) =
      some [[], run, [c]] := by
  have lineBreak (earlier : Option Char) :
      matchSlices [.lineBreaks] earlier ([c] ++ (indent ++ rest)) = some [[c]] := by
    have admitted : Segment.lineBreaks.Admits earlier [c] :=
      ⟨List.cons_ne_nil _ _, by simpa [Text.isBreak] using hc⟩
    refine matchSlices_cons admitted rfl fun other behind same ho _ => ?_
    cases other with
    | nil => exact Nat.zero_le _
    | cons d more =>
      cases more with
      | nil => exact Nat.le_refl _
      | cons e more =>
        have breaks : Text.isBreak d = true ∧ Text.isBreak e = true := by
          simpa [Text.isBreak] using ⟨ho.2 d (by simp), ho.2 e (by simp)⟩
        have first : Text.AllBlank [d] := .cons (Text.isBlank_of_isBreak breaks.1) .nil
        -- The second line break would stand behind the last one.
        have shorter : [d].length ≤ ([] : Text).length :=
          length_le_of_isBreak hi hr same first breaks.2
        simp at shorter
  have blanks : matchSlices [.blanks, .lineBreaks] earlier (run ++ ([c] ++ (indent ++ rest))) =
      some [run, [c]] := by
    refine matchSlices_cons hb (lineBreak _) fun other behind same ho goesOn => ?_
    obtain ⟨d, tail, rfl, hd⟩ := exists_break_of_matchSlices goesOn
    exact length_le_of_isBreak hi hr same ho hd
  have start : matchSlices Pattern.blankLine.segments earlier (run ++ ([c] ++ (indent ++ rest))) =
      (matchSlices [.blanks, .lineBreaks] earlier (run ++ ([c] ++ (indent ++ rest)))).map ([] :: ·) :=
    if_pos he
  rw [start, blanks]
  rfl

end Matches

/-! ## Dropping -/

section Dropping

variable {earlier : Option Char} {blanks indent rest line : Text} {c : Char}

theorem dropBlankLines_nil (earlier : Option Char) : dropBlankLines earlier [] = [] := by
  have nothing := matchSlices_noBlankFirst Text.noBlankFirst_nil earlier
  rw [dropBlankLines, Pattern.replaceFrom, nothing]

theorem dropBlankLines_copy
    (h : matchSlices Pattern.blankLine.segments earlier (c :: rest) = none) :
    dropBlankLines earlier (c :: rest) = c :: dropBlankLines (some c) rest := by
  rw [dropBlankLines, Pattern.replaceFrom, h]
  rfl

/-- Where an indentation stands it does not matter what is before it. -/
theorem dropBlankLines_indent (hi : indent.IsIndent) (hr : rest.NoBlankFirst)
    (earlier : Option Char) :
    dropBlankLines earlier (indent ++ rest) = indent ++ dropBlankLines none rest := by
  induction indent generalizing earlier with
  | nil =>
    rw [List.nil_append, List.nil_append]
    cases rest with
    | nil => rw [dropBlankLines_nil, dropBlankLines_nil]
    | cons c rest =>
      rw [dropBlankLines_copy (matchSlices_noBlankFirst hr earlier),
        dropBlankLines_copy (matchSlices_noBlankFirst hr none)]
  | cons c indent ih =>
    have behind : Text.IsIndent indent :=
      ⟨fun d hd => hi.blank d (List.mem_cons_of_mem _ hd),
        fun d hd => hi.noBreak d (List.mem_cons_of_mem _ hd)⟩
    have here := matchSlices_indent hi hr earlier
    rw [List.cons_append] at here ⊢
    rw [dropBlankLines_copy here, ih behind, List.cons_append]

/-- Of blanks at the start of a line what stands behind the last line break is left. -/
theorem dropBlankLines_blanks (he : LineStart earlier) (hb : blanks.AllBlank)
    (hr : rest.NoBlankFirst) :
    dropBlankLines earlier (blanks ++ rest) = Text.indentOf blanks ++ dropBlankLines none rest := by
  have indent := Text.isIndent_indentOf hb
  rcases Text.eq_indentOf_or_exists blanks with same | ⟨run, c, hc, same⟩
  · have passed := dropBlankLines_indent indent hr earlier
    rwa [← same] at passed ⊢
  · have blank : Text.AllBlank run := fun d hd => hb d (by rw [same]; simp [hd])
    have whole : [[], run, [c]].flatten = run ++ [c] := by simp
    have found := matchSlices_blankLine he blank hc indent hr
    rw [← List.append_assoc run] at found
    have taken := Pattern.blankLine.replaceFrom_match [] whole (by simp) found
    calc dropBlankLines earlier (blanks ++ rest)
        = dropBlankLines earlier ((run ++ [c]) ++ (Text.indentOf blanks ++ rest)) := by
          conv_lhs => rw [same]
          simp
      _ = dropBlankLines (Text.lastOr earlier (run ++ [c])) (Text.indentOf blanks ++ rest) := taken
      _ = Text.indentOf blanks ++ dropBlankLines none rest := dropBlankLines_indent indent hr _

/-- A line of nothing but blanks is dropped. -/
theorem dropBlankLines_blankLine (he : LineStart earlier) (hb : line.AllBlank) (rest : Text) :
    dropBlankLines earlier (line ++ '\n' :: rest) = dropBlankLines (some '\n') rest := by
  obtain ⟨blanks, hblanks, cut⟩ := Text.exists_blanks_trimStart rest
  have first := Text.noBlankFirst_trimStart rest
  have all : Text.AllBlank (line ++ '\n' :: blanks) := hb.append (.cons rfl hblanks)
  -- A match that starts on the line goes on over the blanks behind it, so the line itself leaves no
  -- trace in the indentation that is left.
  calc dropBlankLines earlier (line ++ '\n' :: rest)
      = dropBlankLines earlier ((line ++ '\n' :: blanks) ++ rest.trimStart) := by
        conv_lhs => rw [cut]
        simp
    _ = Text.indentOf blanks ++ dropBlankLines none rest.trimStart := by
        rw [dropBlankLines_blanks he all first, Text.indentOf_append_break _ _ rfl]
    _ = dropBlankLines (some '\n') rest := by
        conv_rhs => rw [cut]
        exact (dropBlankLines_blanks (Or.inr rfl) hblanks first).symm

/-- Behind a character a line goes on to its end. -/
theorem dropBlankLines_sameLine {out : Text} (hn : '\n' ∉ line)
    (h : ∀ c, c ≠ '\n' → dropBlankLines (some c) rest = out) (hc : c ≠ '\n') :
    dropBlankLines (some c) (line ++ rest) = line ++ out := by
  induction line generalizing c with
  | nil => exact h c hc
  | cons d line ih =>
    simp only [List.mem_cons, not_or] at hn
    have inside : ¬ LineStart (some c) := by simp [LineStart, hc]
    rw [List.cons_append, dropBlankLines_copy (matchSlices_sameLine inside _),
      ih hn.2 (Ne.symm hn.1), List.cons_append]

/-- A line with something on it stays, but for a blank line in front of its indentation. -/
theorem dropBlankLines_line {out : Text} (he : LineStart earlier) (hn : '\n' ∉ line)
    (solid : line.trimStart ≠ []) (h : ∀ c, c ≠ '\n' → dropBlankLines (some c) rest = out) :
    dropBlankLines earlier (line ++ rest) = line.keptLine ++ out := by
  have first := Text.noBlankFirst_trimStart line
  have cut := Text.takeWhile_append_trimStart line
  have feed : '\n' ∉ line.trimStart := by
    rw [← cut] at hn
    exact fun hm => hn (List.mem_append_right _ hm)
  have start : dropBlankLines none (line.trimStart ++ rest) = line.trimStart ++ out := by
    cases ht : line.trimStart with
    | nil => exact absurd ht solid
    | cons c behind =>
      rw [ht] at first feed
      simp only [List.mem_cons, not_or] at feed
      have here := matchSlices_noBlankFirst (first.append_left (List.cons_ne_nil c behind) rest) none
      rw [List.cons_append] at here ⊢
      rw [dropBlankLines_copy here, dropBlankLines_sameLine feed.2 h (Ne.symm feed.1),
        List.cons_append]
  conv_lhs => rw [← cut]
  rw [List.append_assoc,
    dropBlankLines_blanks he (Text.allBlank_takeWhile line) (first.append_left solid rest), start,
    Text.keptLine, List.append_assoc]

/-- The last piece stays, blank or not, but for a blank line at its start. -/
theorem dropBlankLines_last (he : LineStart earlier) (hn : '\n' ∉ line) :
    dropBlankLines earlier line = line.keptLine := by
  by_cases solid : line.trimStart = []
  · have dropped := dropBlankLines_blanks he (Text.allBlank_takeWhile line) Text.noBlankFirst_nil
    have cut := Text.takeWhile_append_trimStart line
    rw [solid] at cut
    rw [cut, dropBlankLines_nil] at dropped
    rw [dropped, Text.keptLine, solid]
  · have kept := dropBlankLines_line he hn solid fun c _ => dropBlankLines_nil (some c)
    rwa [List.append_nil, List.append_nil] at kept

/-- Of a text made of lines the blank ones are left out. -/
theorem dropBlankLines_ofLines (he : LineStart earlier) {lines : List Text} {last : Text}
    (hlines : ∀ line ∈ lines, '\n' ∉ line) (hlast : '\n' ∉ last) :
    dropBlankLines earlier (Text.ofLines lines last) =
      Text.ofLines ((lines.filter fun line => !line.all Text.isBlank).map Text.keptLine)
        last.keptLine := by
  induction lines generalizing earlier with
  | nil => exact dropBlankLines_last he hlast
  | cons line lines ih =>
    have later := ih (Or.inr rfl) fun line hl => hlines line (List.mem_cons_of_mem _ hl)
    rw [Text.ofLines_cons]
    cases hb : line.all Text.isBlank with
    | true =>
      rw [dropBlankLines_blankLine he (List.all_eq_true.mp hb), later]
      simp [hb]
    | false =>
      have solid : line.trimStart ≠ [] := by simp [← Text.all_isBlank_iff, hb]
      have behind (c : Char) (hc : c ≠ '\n') :
          dropBlankLines (some c) ('\n' :: Text.ofLines lines last) =
            '\n' :: Text.ofLines ((lines.filter fun line => !line.all Text.isBlank).map Text.keptLine)
              last.keptLine := by
        have inside : ¬ LineStart (some c) := by simp [LineStart, hc]
        rw [dropBlankLines_copy (matchSlices_sameLine inside _), later]
      rw [dropBlankLines_line he (hlines line List.mem_cons_self) solid behind]
      simp [hb, Text.ofLines_cons]

/-- A second pass finds nothing to drop. -/
theorem dropBlankLines_twice (text : Text) :
    dropBlankLines none (dropBlankLines none text) = dropBlankLines none text := by
  obtain ⟨lines, last, hlines, hlast, rfl⟩ := Text.exists_ofLines text
  have kept {line : Text} (h : '\n' ∉ line) : '\n' ∉ line.keptLine :=
    fun hm => h (Text.mem_of_mem_keptLine hm)
  have settled : ∀ line ∈ (lines.filter fun line => !line.all Text.isBlank).map Text.keptLine,
      '\n' ∉ line ∧ line.all Text.isBlank = false ∧ line.keptLine = line := by
    intro line hl
    obtain ⟨source, hs, rfl⟩ := List.mem_map.mp hl
    obtain ⟨hs, blank⟩ := List.mem_filter.mp hs
    rw [Text.all_isBlank_keptLine]
    exact ⟨kept (hlines source hs), by simpa using blank, Text.keptLine_keptLine source⟩
  rw [dropBlankLines_ofLines (Or.inl rfl) hlines hlast,
    dropBlankLines_ofLines (Or.inl rfl) (fun line hl => (settled line hl).1) (kept hlast),
    Text.keptLine_keptLine, List.filter_eq_self.mpr fun line hl => by simp [(settled line hl).2.1],
    List.map_congr_left fun line hl => (settled line hl).2.2, List.map_id']

end Dropping

end Stencil
