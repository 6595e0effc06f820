import Stencil.Proofs.Chunks

/-!
# Tokens of artifact source

The marks of artifact source can be found by cutting it into tokens first: the two marks, line
feeds, single characters with which a mark starts, and runs of all others, each token the longest
that starts where it starts (`Lexed`). Tokens are put together to chunks one after the other
(`gather`). Proved here:

* `exists_lexed`: every source can be cut into tokens;
* `no_opening_in_token` and `no_closing_in_token`: no mark starts inside a token of another kind, so
  none is hidden, whatever marks begin alike or overlap;
* `resume_take`: a token does what its marks do;
* `gather_eq_split`: so the tokens come to the chunks of the source.
-/

namespace Stencil.Artifact

open Template (marks_closing marks_opening splitTag_piece splitText_piece)

/-! ## Tokens -/

inductive TokenKind
  | opening
  | closing
  | lineFeed
  | less
  | question
  /-- A run of other characters. -/
  | run

def isPlain (c : Char) : Bool := c != '<' && c != '?' && c != '\n'

def TokenKind.Admits : TokenKind → Text → Prop
  | .opening, piece => piece = tagOpen
  | .closing, piece => piece = tagClose
  | .lineFeed, piece => piece = ['\n']
  | .less, piece => piece = ['<']
  | .question, piece => piece = ['?']
  | .run, piece => piece ≠ [] ∧ ∀ c ∈ piece, isPlain c = true

/-- No token with which the source starts is longer than the piece. -/
def Longest (piece source : Text) : Prop :=
  ∀ (kind : TokenKind) (other : Text), kind.Admits other → other <+: source →
    other.length ≤ piece.length

/-- Source cut into tokens, each the longest that starts where it starts. -/
inductive Lexed : Text → List (TokenKind × Text) → Prop
  | nil : Lexed [] []
  | cons {kind : TokenKind} (piece : Text) {rest tokens} (admits : kind.Admits piece)
      (longest : Longest piece (piece ++ rest)) (tail : Lexed rest tokens) :
      Lexed (piece ++ rest) ((kind, piece) :: tokens)

/-- A moment while tokens are put together to chunks. -/
structure Gathering where
  chunks : List Chunk
  line : Nat
  /-- What has been read of the chunk that is not complete. -/
  done : Text
  /-- The line on which that chunk starts, when it is a tag. -/
  tag : Option Nat

namespace Gathering

def take (g : Gathering) (token : TokenKind × Text) : Gathering :=
  let line := g.line + token.2.count '\n'
  match token.1, g.tag with
  | .opening, none => ⟨g.chunks ++ consText g.done [], line, [], some g.line⟩
  | .closing, some start => ⟨g.chunks ++ [.tag g.done start], line, [], none⟩
  | _, _ => { g with line, done := g.done ++ token.2 }

def finish (g : Gathering) : Except Nat (List Chunk) :=
  match g.tag with
  | some start => .error start
  | none => .ok (g.chunks ++ consText g.done [])

end Gathering

def gather (tokens : List (TokenKind × Text)) : Except Nat (List Chunk) :=
  (tokens.foldl Gathering.take ⟨[], 1, [], none⟩).finish

/-! ## The longest token -/

theorem longest_of {piece source : Text} (hn : piece ≠ [])
    (ho : tagOpen <+: source → 4 ≤ piece.length) (hc : tagClose <+: source → 2 ≤ piece.length)
    (hr : (source.takeWhile isPlain).length ≤ piece.length) : Longest piece source := by
  intro kind other admits hp
  have positive : 1 ≤ piece.length := List.length_pos_iff.mpr hn
  cases kind with
  | opening => cases admits; exact ho hp
  | closing => cases admits; exact hc hp
  | lineFeed => cases admits; exact positive
  | less => cases admits; exact positive
  | question => cases admits; exact positive
  | run =>
    obtain ⟨rest, rfl⟩ := hp
    rw [List.takeWhile_append_of_pos admits.2, List.length_append] at hr
    omega

theorem exists_token {source : Text} (hn : source ≠ []) :
    ∃ kind piece rest, source = piece ++ rest ∧ piece ≠ [] ∧ TokenKind.Admits kind piece ∧
      Longest piece source := by
  obtain ⟨c, behind, rfl⟩ := List.exists_cons_of_ne_nil hn
  by_cases ho : tagOpen <+: c :: behind
  · obtain ⟨rest, hr⟩ := ho
    refine ⟨.opening, tagOpen, rest, hr.symm, by decide, rfl, ?_⟩
    rw [← hr]
    exact longest_of (by decide) (fun _ => by decide) (fun _ => by decide)
      (by simp [tagOpen, isPlain])
  by_cases hc : tagClose <+: c :: behind
  · obtain ⟨rest, hr⟩ := hc
    refine ⟨.closing, tagClose, rest, hr.symm, by decide, rfl, ?_⟩
    exact longest_of (by decide) (fun h => absurd h ho) (fun _ => by decide)
      (by simp [← hr, tagClose, isPlain])
  by_cases hp : isPlain c = true
  · refine ⟨.run, (c :: behind).takeWhile isPlain, (c :: behind).dropWhile isPlain,
      List.takeWhile_append_dropWhile.symm, by simp [hp], ⟨by simp [hp], fun d hd => ?_⟩, ?_⟩
    · exact List.mem_takeWhile_imp hd
    · exact longest_of (by simp [hp]) (fun h => absurd h ho) (fun h => absurd h hc) le_rfl
  · have alone (kind : TokenKind) (admits : kind.Admits [c]) :
        ∃ kind piece rest, c :: behind = piece ++ rest ∧ piece ≠ [] ∧
          TokenKind.Admits kind piece ∧ Longest piece (c :: behind) :=
      ⟨kind, [c], behind, rfl, List.cons_ne_nil _ _, admits, longest_of (List.cons_ne_nil _ _)
        (fun h => absurd h ho) (fun h => absurd h hc) (by simp [hp])⟩
    have special : c = '<' ∨ c = '?' ∨ c = '\n' := by
      simp only [isPlain, Bool.and_eq_true, bne_iff_ne, not_and_or, not_not] at hp
      exact or_assoc.mp hp
    rcases special with rfl | rfl | rfl
    · exact alone .less rfl
    · exact alone .question rfl
    · exact alone .lineFeed rfl

/-- Every source can be cut into tokens. -/
theorem exists_lexed (source : Text) : ∃ tokens, Lexed source tokens := by
  induction hk : source.length using Nat.strongRecOn generalizing source with
  | ind k ih =>
    by_cases hn : source = []
    · exact ⟨[], hn ▸ .nil⟩
    · obtain ⟨kind, piece, rest, rfl, hp, admits, longest⟩ := exists_token hn
      have shorter : rest.length < k := by
        have := List.length_pos_iff.mpr hp
        rw [List.length_append] at hk
        omega
      obtain ⟨tokens, tail⟩ := ih rest.length shorter rest rfl
      exact ⟨_, .cons piece admits longest tail⟩

/-! ## Marks in tokens -/

theorem eq_nil_of_alone {a b : Text} {c : Char} (h : a ++ c :: b = [c]) : a = [] ∧ b = [] := by
  simpa [List.append_eq_singleton_iff] using h

/-- An opening mark starts nowhere in a token of another kind. -/
theorem no_opening_in_token {kind : TokenKind} {piece rest : Text} (admits : kind.Admits piece)
    (longest : Longest piece (piece ++ rest)) (hk : kind ≠ .opening) :
    ∀ a c b, piece = a ++ c :: b → ¬ tagOpen <+: c :: b ++ rest := by
  rintro a c b rfl ⟨behind, hp⟩
  obtain rfl : '<' = c := (List.cons.inj hp).1
  have mem : '<' ∈ a ++ '<' :: b := by simp
  cases kind with
  | opening => exact hk rfl
  | closing => rw [admits] at mem; exact absurd mem (by decide)
  | lineFeed => rw [admits] at mem; exact absurd mem (by decide)
  | question => rw [admits] at mem; exact absurd mem (by decide)
  | run => exact absurd (admits.2 '<' mem) (by decide)
  | less =>
    -- The sign alone would not be the longest token.
    obtain ⟨rfl, rfl⟩ := eq_nil_of_alone admits
    exact absurd (longest .opening tagOpen rfl ⟨behind, hp⟩) (by decide)

/-- A closing mark starts nowhere in an opening one. -/
theorem passes_tagOpen : Passes tagClose tagOpen := by
  have sign : Passes ('?' :: ['>']) ['<'] := .of_notMem (by decide)
  have others : Passes ('?' :: ['>']) ('?' :: ['v'] ++ ['m']) :=
    .of_other (by decide) (by decide) (by decide) (by decide)
  exact sign.append others

/-- A closing mark starts nowhere in a token of another kind. -/
theorem no_closing_in_token {kind : TokenKind} {piece rest : Text} (admits : kind.Admits piece)
    (longest : Longest piece (piece ++ rest)) (hk : kind ≠ .closing) :
    ∀ a c b, piece = a ++ c :: b → ¬ tagClose <+: c :: b ++ rest := by
  rintro a c b rfl ⟨behind, hp⟩
  obtain rfl : '?' = c := (List.cons.inj hp).1
  have mem : '?' ∈ a ++ '?' :: b := by simp
  cases kind with
  | closing => exact hk rfl
  | opening => exact passes_tagOpen a '?' b rest admits.symm ⟨behind, hp⟩
  | lineFeed => rw [admits] at mem; exact absurd mem (by decide)
  | less => rw [admits] at mem; exact absurd mem (by decide)
  | run => exact absurd (admits.2 '?' mem) (by decide)
  | question =>
    obtain ⟨rfl, rfl⟩ := eq_nil_of_alone admits
    exact absurd (longest .closing tagClose rfl ⟨behind, hp⟩) (by decide)

/-! ## Tokens and marks -/

/-- What becomes of the marks that are still to come. -/
def Gathering.resume (g : Gathering) (ms : List Mark) : Except Nat (List Chunk) :=
  match g.tag with
  | none => (splitText g.line g.done.reverse ms).map (g.chunks ++ ·)
  | some start => (splitTag start g.line g.done.reverse ms).map (g.chunks ++ ·)

theorem consText_eq_append (text : Text) (chunks : List Chunk) :
    consText text chunks = consText text [] ++ chunks := by
  cases text <;> rfl

/-- A token does what its marks do. -/
theorem resume_take {kind : TokenKind} {piece rest : Text} (admits : kind.Admits piece)
    (longest : Longest piece (piece ++ rest)) (g : Gathering) :
    (g.take (kind, piece)).resume (marks rest) = g.resume (marks (piece ++ rest)) := by
  obtain ⟨chunks, line, done, tag⟩ := g
  cases tag with
  | none =>
    by_cases hk : kind = .opening
    · subst hk
      cases admits
      have feeds : tagOpen.count '\n' = 0 := by decide
      simp only [Gathering.take, Gathering.resume, marks_opening, splitText, feeds, Nat.add_zero,
        List.reverse_nil, List.reverse_reverse]
      cases splitTag line line [] (marks rest) with
      | error start => rfl
      | ok more => simp only [Except.map, consText_eq_append done more, List.append_assoc]
    · have taken : Gathering.take ⟨chunks, line, done, none⟩ (kind, piece) =
          ⟨chunks, line + piece.count '\n', done ++ piece, none⟩ := by
        cases kind <;> first | rfl | exact absurd rfl hk
      rw [taken]
      simp only [Gathering.resume, List.reverse_append]
      rw [splitText_piece line _ (no_opening_in_token admits longest hk)]
  | some start =>
    by_cases hk : kind = .closing
    · subst hk
      cases admits
      have feeds : tagClose.count '\n' = 0 := by decide
      simp only [Gathering.take, Gathering.resume, marks_closing, splitTag, feeds, Nat.add_zero,
        List.reverse_nil, List.reverse_reverse]
      cases splitText line [] (marks rest) with
      | error start => rfl
      | ok more => simp only [Except.map, List.append_assoc, List.singleton_append]
    · have taken : Gathering.take ⟨chunks, line, done, some start⟩ (kind, piece) =
          ⟨chunks, line + piece.count '\n', done ++ piece, some start⟩ := by
        cases kind <;> first | rfl | exact absurd rfl hk
      rw [taken]
      simp only [Gathering.resume, List.reverse_append]
      rw [splitTag_piece start line _ (no_closing_in_token admits longest hk)]

theorem finish_eq_resume (g : Gathering) : g.finish = g.resume [] := by
  obtain ⟨chunks, line, done, tag⟩ := g
  cases tag with
  | none => simp [Gathering.finish, Gathering.resume, splitText, Except.map]
  | some start => simp [Gathering.finish, Gathering.resume, splitTag, Except.map]

theorem finish_foldl {source : Text} {tokens : List (TokenKind × Text)} (h : Lexed source tokens)
    (g : Gathering) : (tokens.foldl Gathering.take g).finish = g.resume (marks source) := by
  induction h generalizing g with
  | nil => exact finish_eq_resume g
  | cons piece admits longest _ ih =>
    rw [List.foldl_cons, ih, resume_take admits longest]

/-- However the source is cut into tokens, they come to the same chunks. -/
theorem gather_eq_split {source : Text} {tokens : List (TokenKind × Text)}
    (h : Lexed source tokens) : gather tokens = split source := by
  refine (finish_foldl h _).trans ?_
  show (splitText 1 [] (marks source)).map ([] ++ ·) = splitText 1 [] (marks source)
  cases splitText 1 [] (marks source) <;> rfl

end Stencil.Artifact
