import Mathlib.Data.List.Chain
import Stencil.Proofs.LeftmostMatch

/-!
# The source form of patterns

A pattern is read from its source form, and printed in it. Proved here:

* `read_ok`: what is read is made of characters and tokens, is printed as it was written, and has no
  literal that is empty or comes behind another;
* `exists_read`: whatever is made of characters and tokens is read;
* `read_printAll`: segments are printed so that they are read back as they were, each literal in one
  piece;
* `parse_inverts_print`: so reading and printing are inverse to each other, and no two sources are
  read as one pattern.
-/

namespace Stencil

/-! ## Source forms and segments -/

def tokenLetters : List Char := ['%', 's', '?', '*', '+', 'b', '^', 'n']

/-- Characters other than the percent sign, and tokens. -/
inductive SourceForm : Text → Prop
  | nil : SourceForm []
  | char {c rest} (plain : c ≠ '%') (tail : SourceForm rest) : SourceForm (c :: rest)
  | token {letter rest} (known : letter ∈ tokenLetters) (tail : SourceForm rest) :
      SourceForm ('%' :: letter :: rest)

namespace Segment

def isLiteral : Segment → Bool
  | .literal _ => true
  | _ => false

/-- One segment may come behind the other: literal text is in one piece. -/
def Apart (a b : Segment) : Prop := ¬(a.isLiteral = true ∧ b.isLiteral = true)

def printAll (segments : List Segment) : Text := segments.flatMap print

def printChar (c : Char) : Text := if c = '%' then ['%', '%'] else [c]

/-- No literal is empty, and none comes behind another. -/
structure Settled (segments : List Segment) : Prop where
  nonempty : ∀ text, .literal text ∈ segments → text ≠ []
  apart : segments.IsChain Apart

theorem Settled.tail {first : Segment} {segments : List Segment}
    (h : Settled (first :: segments)) : Settled segments :=
  ⟨fun text ht => h.nonempty text (List.mem_cons_of_mem _ ht), h.apart.tail⟩

/-! ## Characters and tokens -/

theorem printAll_consChar (c : Char) (segments : List Segment) :
    printAll (consChar c segments) = printChar c ++ printAll segments := by
  cases segments with
  | nil => simp [consChar, printAll, print, printChar]
  | cons first segments => cases first <;> simp [consChar, printAll, print, printChar]

theorem Settled.consChar {segments : List Segment} (h : Settled segments) (c : Char) :
    Settled (consChar c segments) := by
  -- In front of another segment the character is a literal of its own.
  have alone (hl : ∀ first, segments.head? = some first → first.isLiteral = false) :
      Settled (.literal [c] :: segments) := by
    refine ⟨fun text ht => ?_, List.isChain_cons.mpr ⟨fun first hf => ?_, h.apart⟩⟩
    · rcases List.mem_cons.mp ht with same | ht
      · cases same
        simp
      · exact h.nonempty text ht
    · simp [Apart, hl first hf]
  cases segments with
  | nil => exact alone (by simp)
  | cons first segments =>
    cases first with
    | literal text =>
      refine ⟨fun other ho => ?_, ?_⟩
      · rcases List.mem_cons.mp ho with same | ho
        · cases same
          simp
        · exact h.nonempty other (List.mem_cons_of_mem _ ho)
      · obtain ⟨behind, apart⟩ := List.isChain_cons.mp h.apart
        exact List.isChain_cons.mpr ⟨fun next hn => behind next hn, apart⟩
    | _ => exact alone (by simp [isLiteral])

theorem Settled.cons_token {segment : Segment} {segments : List Segment} (h : Settled segments)
    (hl : segment.isLiteral = false) : Settled (segment :: segments) := by
  refine ⟨fun text ht => ?_, List.isChain_cons.mpr ⟨fun next _ => ?_, h.apart⟩⟩
  · rcases List.mem_cons.mp ht with rfl | ht
    · cases hl
    · exact h.nonempty text ht
  · simp [Apart, hl]

/-- The letter of a token other than the doubled percent sign names a segment, which is printed as
the token. -/
theorem ofLetter?_eq_some_iff {letter : Char} {segment : Segment} :
    ofLetter? letter = some segment ↔
      segment.isLiteral = false ∧ print segment = ['%', letter] := by
  constructor
  · intro h
    unfold ofLetter? at h
    split at h <;> cases h <;> exact ⟨rfl, rfl⟩
  · rintro ⟨hl, hp⟩
    cases segment with
    | literal text => cases hl
    | capture kind => cases kind <;> cases hp <;> rfl
    | _ => cases hp; rfl

theorem exists_letter {segment : Segment} (h : segment.isLiteral = false) :
    ∃ letter, ofLetter? letter = some segment := by
  cases segment with
  | literal text => cases h
  | blanks => exact ⟨'s', rfl⟩
  | lineStart => exact ⟨'^', rfl⟩
  | lineBreaks => exact ⟨'n', rfl⟩
  | capture kind =>
    cases kind with
    | short => exact ⟨'?', rfl⟩
    | shortAcrossLines => exact ⟨'*', rfl⟩
    | long => exact ⟨'+', rfl⟩
    | balanced => exact ⟨'b', rfl⟩

theorem exists_ofLetter? {letter : Char} (h : letter ∈ tokenLetters) (hp : letter ≠ '%') :
    ∃ segment, ofLetter? letter = some segment := by
  simp only [tokenLetters, List.mem_cons, List.not_mem_nil, or_false] at h
  rcases h with rfl | rfl | rfl | rfl | rfl | rfl | rfl | rfl
  · exact absurd rfl hp
  all_goals exact ⟨_, rfl⟩

theorem mem_tokenLetters {letter : Char} {segment : Segment} (h : ofLetter? letter = some segment) :
    letter ∈ tokenLetters := by
  unfold ofLetter? at h
  split at h
  case h_8 => cases h
  all_goals decide

end Segment

namespace Pattern

open Segment (Settled printAll printChar consChar ofLetter? ofLetter?_eq_some_iff printAll_consChar
  mem_tokenLetters exists_ofLetter?)

/-! ## Reading -/

theorem read_char (c : Char) (rest : Text) :
    read (printChar c ++ rest) = (read rest).map (consChar c) := by
  unfold printChar
  split
  · next h => subst h; rfl
  · next h =>
    show read (c :: rest) = _
    rw [read]
    all_goals
      intros
      simp_all

theorem read_token {letter : Char} {segment : Segment} (h : ofLetter? letter = some segment)
    (rest : Text) : read ('%' :: letter :: rest) = (read rest).map (segment :: ·) := by
  rw [read, h]
  rintro rfl
  cases h

/-- What is read comes about character by character and token by token. -/
theorem read_induction {p : Text → List Segment → Prop} (nil : p [] [])
    (char : ∀ c rest segments, p rest segments →
      p (printChar c ++ rest) (consChar c segments))
    (token : ∀ letter rest segment segments, ofLetter? letter = some segment → p rest segments →
      p ('%' :: letter :: rest) (segment :: segments)) {source : Text} {segments : List Segment}
    (h : read source = .ok segments) : p source segments := by
  induction source using read.induct generalizing segments with
  | case1 => cases h; exact nil
  | case2 => cases h
  | case3 rest ih =>
    obtain ⟨more, hm, rfl⟩ := exists_of_map_eq_ok h
    exact char '%' rest more (ih hm)
  | case4 letter rest _ segment hs ih =>
    rw [read_token hs] at h
    obtain ⟨more, hm, rfl⟩ := exists_of_map_eq_ok h
    exact token letter rest segment more hs (ih hm)
  | case5 letter rest _ hs =>
    rw [read, hs] at h
    · cases h
    · assumption
  | case6 c rest single doubled named ih =>
    have plain : c ≠ '%' := by
      rintro rfl
      cases rest with
      | nil => exact single rfl rfl
      | cons letter rest => exact named letter rest rfl rfl
    have one : printChar c = [c] := if_neg plain
    have read := read_char c rest
    rw [one, List.singleton_append, h] at read
    obtain ⟨more, hm, rfl⟩ := exists_of_map_eq_ok read.symm
    have := char c rest more (ih hm)
    rwa [one] at this

/-- What is read has the form of a source, is printed as it was written, and is in order. -/
theorem read_ok {source : Text} {segments : List Segment} (h : read source = .ok segments) :
    SourceForm source ∧ printAll segments = source ∧ Settled segments := by
  refine read_induction
    (p := fun source segments => SourceForm source ∧ printAll segments = source ∧ Settled segments)
    ⟨.nil, rfl, by simp, .nil⟩ ?_ ?_ h
  · rintro c rest segments ⟨form, printed, settled⟩
    refine ⟨?_, by rw [printAll_consChar, printed], settled.consChar c⟩
    unfold printChar
    split
    · exact .token (by decide) form
    · next plain => exact .char plain form
  · rintro letter rest segment segments named ⟨form, printed, settled⟩
    obtain ⟨hl, hp⟩ := ofLetter?_eq_some_iff.mp named
    refine ⟨.token (mem_tokenLetters named) form, ?_, settled.cons_token hl⟩
    rw [printAll, List.flatMap_cons, hp, ← printAll, printed]
    rfl

theorem exists_read {source : Text} (h : SourceForm source) :
    ∃ segments, read source = .ok segments := by
  induction h with
  | nil => exact ⟨[], rfl⟩
  | @char c rest plain _ ih =>
    obtain ⟨segments, hr⟩ := ih
    have read := read_char c rest
    rw [hr, printChar, if_neg plain] at read
    exact ⟨_, read⟩
  | @token letter rest known _ ih =>
    obtain ⟨segments, hr⟩ := ih
    by_cases hp : letter = '%'
    · subst hp
      have read := read_char '%' rest
      rw [hr] at read
      exact ⟨_, read⟩
    · obtain ⟨segment, named⟩ := exists_ofLetter? known hp
      exact ⟨_, by rw [read_token named, hr]; rfl⟩

/-! ## Printing and reading -/

theorem consChar_of_head {segments : List Segment} (c : Char)
    (hl : ∀ first, segments.head? = some first → first.isLiteral = false) :
    consChar c segments = .literal [c] :: segments := by
  cases segments with
  | nil => rfl
  | cons first segments =>
    cases first with
    | literal text => cases hl _ rfl
    | _ => rfl

/-- Literal text is read in one piece when no literal comes behind it. -/
theorem read_literal {text rest : Text} {segments : List Segment} (hn : text ≠ [])
    (hr : read rest = .ok segments)
    (hl : ∀ first, segments.head? = some first → first.isLiteral = false) :
    read (Segment.print (.literal text) ++ rest) = .ok (.literal text :: segments) := by
  induction text with
  | nil => exact absurd rfl hn
  | cons c text ih =>
    have printed : Segment.print (.literal (c :: text)) ++ rest =
        printChar c ++ (Segment.print (.literal text) ++ rest) := by
      simp [Segment.print, printChar]
    rw [printed, read_char]
    cases text with
    | nil =>
      rw [show Segment.print (.literal []) ++ rest = rest from rfl, hr]
      exact congrArg Except.ok (consChar_of_head c hl)
    | cons d text =>
      rw [ih (List.cons_ne_nil _ _)]
      rfl

theorem read_printAll {segments : List Segment} (h : Settled segments) :
    read (printAll segments) = .ok segments := by
  induction segments with
  | nil => rfl
  | cons segment segments ih =>
    have rest := ih h.tail
    have printed : printAll (segment :: segments) = segment.print ++ printAll segments := rfl
    rw [printed]
    cases hs : segment.isLiteral with
    | true =>
      cases segment with
      | literal text =>
        refine read_literal (h.nonempty text List.mem_cons_self) rest fun first hf => ?_
        have apart := (List.isChain_cons.mp h.apart).1 first hf
        simpa [Segment.Apart, Segment.isLiteral] using apart
      | _ => cases hs
    | false =>
      obtain ⟨letter, named⟩ := Segment.exists_letter hs
      rw [(ofLetter?_eq_some_iff.mp named).2]
      show read ('%' :: letter :: printAll segments) = _
      rw [read_token named, rest]
      rfl

/-! ## Patterns -/

theorem parse_eq_ok_iff {source : Text} {p : Pattern} :
    parse source = .ok p ↔ p.segments ≠ [] ∧ read source = .ok p.segments := by
  unfold parse
  cases read source with
  | error fault => simp
  | ok segments =>
    cases segments with
    | nil =>
      simp only [reduceCtorEq, Except.ok.injEq, false_iff, not_and]
      exact fun hn he => hn he.symm
    | cons first segments =>
      simp only [Except.ok.injEq]
      constructor
      · rintro rfl
        exact ⟨List.cons_ne_nil _ _, rfl⟩
      · rintro ⟨-, he⟩
        rw [he]

/-- The pattern is not empty, no literal in it is empty, and none comes behind another. -/
structure Normal (p : Pattern) : Prop where
  segments : p.segments ≠ []
  settled : Settled p.segments

theorem parse_eq_ok_iff_print {source : Text} {p : Pattern} :
    parse source = .ok p ↔ p.Normal ∧ p.print = source := by
  rw [parse_eq_ok_iff]
  constructor
  · rintro ⟨hn, hr⟩
    obtain ⟨-, printed, settled⟩ := read_ok hr
    exact ⟨⟨hn, settled⟩, printed⟩
  · rintro ⟨⟨hn, settled⟩, rfl⟩
    exact ⟨hn, read_printAll settled⟩

theorem exists_parse_iff {source : Text} :
    (∃ p, parse source = .ok p) ↔ source ≠ [] ∧ SourceForm source := by
  constructor
  · rintro ⟨p, h⟩
    obtain ⟨hn, hr⟩ := parse_eq_ok_iff.mp h
    obtain ⟨form, printed, -⟩ := read_ok hr
    refine ⟨?_, form⟩
    rintro rfl
    exact hn (Except.ok.inj hr).symm
  · rintro ⟨hn, form⟩
    obtain ⟨segments, hr⟩ := exists_read form
    refine ⟨⟨segments⟩, parse_eq_ok_iff.mpr ⟨?_, hr⟩⟩
    rintro rfl
    exact hn (read_ok hr).2.1.symm

theorem captureCount_eq (p : Pattern) :
    p.captureCount = p.segments.count (.capture .short) +
      p.segments.count (.capture .shortAcrossLines) + p.segments.count (.capture .long) +
      p.segments.count (.capture .balanced) := by
  obtain ⟨segments⟩ := p
  unfold captureCount
  induction segments with
  | nil => rfl
  | cons segment segments ih =>
    simp only [List.countP_cons, List.count_cons, ih]
    cases segment with
    | capture kind => cases kind <;> simp [Segment.isCapture] <;> omega
    | _ => simp [Segment.isCapture]

/-- A source is read as a pattern exactly when it is not empty and made of characters and tokens,
and the pattern is printed as that source again. A pattern that is not empty, with no literal that
is empty or behind another, is read back from what is printed, with one capture for each slot. So
no two sources are read as one pattern. -/
theorem parse_inverts_print (source : Text) (p : Pattern) :
    ((∃ q, parse source = .ok q) ↔ source ≠ [] ∧ SourceForm source) ∧
      (parse source = .ok p → p.print = source ∧ p.Normal) ∧
      (p.Normal → parse p.print = .ok p ∧
        p.captureCount = p.segments.count (.capture .short) +
          p.segments.count (.capture .shortAcrossLines) + p.segments.count (.capture .long) +
          p.segments.count (.capture .balanced)) ∧
      (parse source = .ok p → ∀ other, parse other = .ok p → other = source) := by
  refine ⟨exists_parse_iff, fun h => ?_, fun h => ?_, fun h other ho => ?_⟩
  · exact (parse_eq_ok_iff_print.mp h).symm
  · exact ⟨parse_eq_ok_iff_print.mpr ⟨h, rfl⟩, p.captureCount_eq⟩
  · exact (parse_eq_ok_iff_print.mp ho).2.symm.trans (parse_eq_ok_iff_print.mp h).2

def percentage : Pattern :=
  ⟨[.lineStart, .literal "50% ".toList, .capture .short, .blanks, .capture .balanced]⟩

theorem parse_inverts_print_percentage :
    parse "%^50%% %?%s%b".toList = .ok percentage ∧ percentage.Normal ∧
      percentage.print = "%^50%% %?%s%b".toList ∧ percentage.captureCount = 2 := by
  have read : parse "%^50%% %?%s%b".toList = .ok percentage := by decide
  obtain ⟨-, printed, again, -⟩ := parse_inverts_print "%^50%% %?%s%b".toList percentage
  obtain ⟨source, normal⟩ := printed read
  exact ⟨read, normal, source, (again normal).2⟩

end Pattern

end Stencil
