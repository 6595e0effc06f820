import Stencil.Artifact.Tag
import Stencil.Proofs.Compilation

/-!
# Cutting a compiled template

The reader cuts an artifact into texts and tags. Proved here:

* `splitText_piece` and `splitTag_piece`: a piece in which no mark starts that would change the
  mode is read as it stands, whatever other marks are in it;
* `splitText_written`: a compiled template falls into the tags of its directives and what is left of
  the texts between them (`chunks`).
-/

namespace Stencil.Template

open Artifact (Chunk Mark marks splitText splitTag consText tagOpen tagClose)

/-! ## Marks -/

theorem marks_char {c : Char} {rest : Text} (ho : ¬ tagOpen <+: c :: rest)
    (hc : ¬ tagClose <+: c :: rest) : marks (c :: rest) = .char c :: marks rest := by
  conv_lhs => unfold marks
  split
  · rename_i behind heq
    exact absurd ⟨behind, heq.symm⟩ ho
  · rename_i behind heq
    exact absurd ⟨behind, heq.symm⟩ hc
  · rename_i heq
    obtain ⟨rfl, rfl⟩ := List.cons.inj heq
    rfl
  · rename_i heq
    simp at heq

theorem marks_opening (rest : Text) : marks (tagOpen ++ rest) = .opening :: marks rest := rfl

theorem marks_closing (rest : Text) : marks (tagClose ++ rest) = .closing :: marks rest := rfl

theorem lineFeeds_char (c : Char) : (Mark.char c).lineFeeds = [c].count '\n' := by
  by_cases h : c = '\n'
  · subst h
    rfl
  · simp [Mark.lineFeeds, h]

/-! ## Pieces that are read as they stand -/

theorem splitText_char (line : Nat) (done : Text) (c : Char) (ms : List Mark) :
    splitText line done (.char c :: ms) = splitText (line + [c].count '\n') (c :: done) ms := by
  rw [splitText, lineFeeds_char]
  · rfl
  · simp

theorem splitTag_char (start line : Nat) (done : Text) (c : Char) (ms : List Mark) :
    splitTag start line done (.char c :: ms) =
      splitTag start (line + [c].count '\n') (c :: done) ms := by
  rw [splitTag, lineFeeds_char]
  · rfl
  · simp

/-- Lines are counted one character after the other. -/
theorem count_feeds_cons (line : Nat) (c : Char) (piece : Text) :
    line + (c :: piece).count '\n' = line + [c].count '\n' + piece.count '\n' := by
  rw [← List.singleton_append, List.count_append, Nat.add_assoc]

/-- Outside tags only an opening mark is more than its characters. -/
theorem splitText_cons (line : Nat) (done : Text) {c : Char} {rest : Text}
    (h : ¬ tagOpen <+: c :: rest) :
    splitText line done (marks (c :: rest)) =
      splitText (line + [c].count '\n') (c :: done) (marks rest) := by
  by_cases hclose : tagClose <+: c :: rest
  · obtain ⟨behind, hb⟩ := hclose
    obtain ⟨rfl, rfl⟩ : '?' = c ∧ '>' :: behind = rest := by simpa [tagClose] using hb
    have second : marks ('>' :: behind) = .char '>' :: marks behind := rfl
    rw [second, splitText_char]
    rfl
  · rw [marks_char h hclose, splitText_char]

/-- Inside a tag only a closing mark is more than its characters. -/
theorem splitTag_cons (start line : Nat) (done : Text) {c : Char} {rest : Text}
    (h : ¬ tagClose <+: c :: rest) :
    splitTag start line done (marks (c :: rest)) =
      splitTag start (line + [c].count '\n') (c :: done) (marks rest) := by
  by_cases hopen : tagOpen <+: c :: rest
  · obtain ⟨behind, hb⟩ := hopen
    obtain ⟨rfl, rfl⟩ : '<' = c ∧ '?' :: 'v' :: 'm' :: behind = rest := by simpa [tagOpen] using hb
    have others : marks ('?' :: 'v' :: 'm' :: behind) =
        .char '?' :: .char 'v' :: .char 'm' :: marks behind := rfl
    rw [others, splitTag_char, splitTag_char, splitTag_char]
    rfl
  · rw [marks_char hopen h, splitTag_char]

/-- A piece in which no opening mark starts is text, and its line feeds are counted. -/
theorem splitText_piece (line : Nat) (done : Text) {piece rest : Text}
    (h : ∀ a c b, piece = a ++ c :: b → ¬ tagOpen <+: c :: b ++ rest) :
    splitText line done (marks (piece ++ rest)) =
      splitText (line + piece.count '\n') (piece.reverse ++ done) (marks rest) := by
  induction piece generalizing line done with
  | nil => rfl
  | cons c piece ih =>
    have here := h [] c piece rfl
    rw [List.cons_append] at here ⊢
    rw [splitText_cons line done here,
      ih _ (c :: done) fun a d b hd => h (c :: a) d b (by rw [hd]; rfl), ← count_feeds_cons]
    simp

theorem splitText_passes (line : Nat) (done : Text) {piece : Text} (h : Passes tagOpen piece)
    (hn : '\n' ∉ piece) (rest : Text) :
    splitText line done (marks (piece ++ rest)) =
      splitText line (piece.reverse ++ done) (marks rest) := by
  rw [splitText_piece line done fun a c b hp => h a c b rest hp, List.count_eq_zero.mpr hn,
    Nat.add_zero]

/-- A piece in which no closing mark starts stays in the tag, and its line feeds are counted. -/
theorem splitTag_piece (start line : Nat) (done : Text) {piece rest : Text}
    (h : ∀ a c b, piece = a ++ c :: b → ¬ tagClose <+: c :: b ++ rest) :
    splitTag start line done (marks (piece ++ rest)) =
      splitTag start (line + piece.count '\n') (piece.reverse ++ done) (marks rest) := by
  induction piece generalizing line done with
  | nil => rfl
  | cons c piece ih =>
    have here := h [] c piece rfl
    rw [List.cons_append] at here ⊢
    rw [splitTag_cons start line done here,
      ih _ (c :: done) fun a d b hd => h (c :: a) d b (by rw [hd]; rfl), ← count_feeds_cons]
    simp

theorem splitTag_passes (start line : Nat) (done : Text) {piece : Text}
    (h : Passes tagClose piece) (rest : Text) :
    splitTag start line done (marks (piece ++ rest)) =
      splitTag start (line + piece.count '\n') (piece.reverse ++ done) (marks rest) :=
  splitTag_piece start line done fun a c b hp => h a c b rest hp

/-- A tag is read from its opening mark to the next closing mark. -/
theorem splitText_tagged (line : Nat) (done : Text) {body : Text}
    (h : Passes tagClose (' ' :: body ++ [' '])) (rest : Text) :
    splitText line done (marks (Artifact.tagged body ++ rest)) =
      (splitText (line + body.count '\n') [] (marks rest)).map fun chunks =>
        consText done.reverse (.tag (' ' :: body ++ [' ']) line :: chunks) := by
  have source : Artifact.tagged body ++ rest =
      tagOpen ++ ((' ' :: body ++ [' ']) ++ (tagClose ++ rest)) := by
    rw [tagged_eq]
    simp [tagOpen, tagClose]
  have feeds : (' ' :: body ++ [' ']).count '\n' = body.count '\n' := by simp
  rw [source, marks_opening, splitText, splitTag_passes line line [] h, feeds, marks_closing,
    splitTag]
  cases splitText (line + body.count '\n') [] (marks rest) with
  | error line' => rfl
  | ok chunks => simp [Except.map]

/-! ## Compiled templates -/

/-- The texts and tags of a compiled template; `atStart` says that the tokens come right behind a
tag that takes blanks. -/
def chunks : Bool → List Token → List Chunk
  | _, [] => []
  | atStart, k :: ks =>
    match k with
    | .text t => consText (cut atStart (nextTakes Form.all ks) t) (chunks false ks)
    | k => .tag (' ' :: k.statement ++ [' ']) 1 :: chunks (k.takesBlanks Form.all) ks

theorem chunks_cons {atStart : Bool} {k : Token} {ks : List Token} (h : k.isText = false) :
    chunks atStart (k :: ks) =
      .tag (' ' :: k.statement ++ [' ']) 1 :: chunks (k.takesBlanks Form.all) ks := by
  cases k with
  | text t => simp [Token.isText] at h
  | _ => rfl

theorem Token.exists_form {k : Token} (h : k.isText = false) : ∃ form, k.form? = some form := by
  cases k with
  | text t => simp [Token.isText] at h
  | _ => exact ⟨_, rfl⟩

theorem splitText_written {ks : List Token} (valid : ∀ k ∈ ks, k.Valid) (spaced : Spaced ks)
    (atStart : Bool) {done : Text}
    (hd : done = [] ∨ ∀ k, ks.head? = some k → k.isText = false) :
    splitText 1 done (marks (written Form.all atStart ks)) =
      .ok (consText done.reverse (chunks atStart ks)) := by
  induction ks generalizing atStart done with
  | nil => rfl
  | cons k ks ih =>
    have validk := valid k List.mem_cons_self
    have validks : ∀ j ∈ ks, j.Valid := fun j hj => valid j (List.mem_cons_of_mem _ hj)
    cases hk : k.isText with
    | true =>
      obtain ⟨t, rfl⟩ := Token.eq_text hk
      have hdone : done = [] := by
        rcases hd with hd | hd
        · exact hd
        · have := hd _ rfl
          simp [Token.isText] at this
      subst hdone
      have opening : Passes tagOpen (cut atStart (nextTakes Form.all ks) t) :=
        .of_notMem fun hm => validk.plain _ (cut_subset hm) (by decide)
      have feed : '\n' ∉ cut atStart (nextTakes Form.all ks) t :=
        fun hm => validk.plain _ (cut_subset hm) (by decide)
      have apart : ∀ j, ks.head? = some j → j.isText = false := by
        intro j hj
        cases ks with
        | nil => simp at hj
        | cons l ks =>
          obtain rfl : l = j := by simpa using hj
          exact spaced.head
      show splitText 1 [] (marks (cut atStart _ t ++ written Form.all false ks)) =
        .ok (consText (cut atStart _ t) (chunks false ks))
      rw [splitText_passes 1 [] opening feed, List.append_nil,
        ih validks spaced.tail false (Or.inr apart), List.reverse_reverse]
    | false =>
      obtain ⟨form, hform⟩ := k.exists_form hk
      rw [written, piece_done hform form.mem_all, chunks_cons hk,
        splitText_tagged 1 done (passes_tagClose validk),
        List.count_eq_zero.mpr (feed_notMem_statement validk), Nat.add_zero,
        ih validks spaced.tail _ (Or.inl rfl)]
      rfl

end Stencil.Template
