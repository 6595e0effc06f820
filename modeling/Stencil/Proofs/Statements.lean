import Stencil.Proofs.Directives
import Stencil.Proofs.TopLevel

/-!
# Source inside tags

What the author writes in an echo or in parentheses goes into a tag as it is. Proved here:

* `IsInert.append`: such source stays closed and free of marks with plain characters behind it, so
  the head of a loop is as good as an argument (`Opening.Valid.inert`);
* `Token.Valid.exists_parts`: a statement is source of the author between plain words. So a tag has
  no sign in it (`notMem_tagged`), no echo starts in it (`passes_tagged`), and it ends where it
  is meant to (`passes_tagClose`).
-/

namespace Stencil.Template

open Artifact (Call)

/-! ## Inert source -/

/-- Source that means nothing to the rules and to the reader of tags. -/
structure IsInert (source : Text) : Prop where
  isCode : IsCode source
  noEcho : ∀ escape, ¬ echoOpen escape <:+: source

/-- Characters that are in a bracket, a string or a mark. -/
def marked : Text :=
  ['(', '[', '{', ')', ']', '}', '\'', '"', '@', '!', '?', '>', '<', '\r', '\n']

/-- Nothing but characters that are in no bracket, string or mark. -/
def IsTame (text : Text) : Prop := ∀ c ∈ text, c ∉ marked

instance : DecidablePred IsTame := fun text =>
  inferInstanceAs (Decidable (∀ c ∈ text, c ∉ marked))

theorem IsTame.append {a b : Text} (ha : IsTame a) (hb : IsTame b) : IsTame (a ++ b) := by
  intro c hc
  rcases List.mem_append.mp hc with hc | hc
  · exact ha c hc
  · exact hb c hc

theorem IsTame.notMem {text : Text} (h : IsTame text) {c : Char} (hc : c ∈ marked) : c ∉ text :=
  fun hm => h c hm hc

theorem IsTame.step {text : Text} (h : IsTame text) (depth : Nat) {c : Char} (hc : c ∈ text) :
    (Scan.plain depth).step c = .plain depth ∧ Scan.isCloser c = false := by
  have := h c hc
  simp only [marked, List.mem_cons, List.not_mem_nil, or_false, not_or] at this
  simp [Scan.step, Scan.isQuote, Scan.isOpener, Scan.isCloser, this]

theorem IsTame.run {text : Text} (h : IsTame text) (depth : Nat) :
    (Scan.plain depth).run text = .plain depth := by
  induction text with
  | nil => rfl
  | cons c text ih =>
    rw [Scan.run, List.foldl_cons, (h.step depth List.mem_cons_self).1]
    exact ih fun d hd => h d (List.mem_cons_of_mem _ hd)

theorem IsInert.append {a b : Text} (ha : IsInert a) (hb : IsTame b) (hn : b ≠ []) :
    IsInert (a ++ b) where
  isCode := {
    closed := by rw [Scan.run_append, ha.isCode.closed, hb.run]
    noStray := by
      intro done c more h
      rcases List.append_eq_append_iff.mp h with ⟨u, rfl, hu⟩ | ⟨u, rfl, hu⟩
      · have hc : c ∈ b := by simp [hu]
        have hrun : (Scan.plain 0).run u = .plain 0 :=
          IsTame.run (fun d hd => hb d (by simp [hu, hd])) 0
        rw [Scan.run_append, ha.isCode.closed, hrun]
        simp [Scan.stray, (hb.step 0 hc).2]
      · cases u with
        | nil =>
          have hc : c ∈ b := by simp at hu; simp [← hu]
          rw [List.append_nil] at ha
          simp [ha.isCode.closed, Scan.stray, (hb.step 0 hc).2]
        | cons d u =>
          obtain ⟨rfl, -⟩ := List.cons.inj hu
          exact ha.isCode.noStray done c u rfl
    noReturn := by simp [ha.isCode.noReturn, hb.notMem (c := '\r') (by decide)]
    noFeed := by simp [ha.isCode.noFeed, hb.notMem (c := '\n') (by decide)]
    noSign := by simp [ha.isCode.noSign, hb.notMem (c := '@') (by decide)]
    noTagEnd := (Passes.of_pair_append ha.isCode.noTagEnd hn (hb.notMem (by decide))
      (hb.notMem (by decide))).absent (by simp) }
  noEcho := by
    intro escape
    have := ha.noEcho escape
    cases escape <;>
      exact (Passes.of_pair_append this hn (hb.notMem (by decide))
        (hb.notMem (by decide))).absent (List.cons_ne_nil _ _)

theorem IsInert.nil : IsInert [] where
  isCode := {
    closed := rfl
    noStray := by simp
    noReturn := by simp
    noFeed := by simp
    noSign := by simp
    noTagEnd := by simp }
  noEcho := by intro escape; cases escape <;> simp [echoOpen]

theorem IsExpression.inert {escape : Bool} {expr : Text} (h : IsExpression escape expr) :
    IsInert expr where
  isCode := h.code
  noEcho := by
    rintro escape ⟨before, after, rfl⟩
    have := h.noOpener
    cases escape <;> simp [echoOpen] at this

theorem IsArgument.inert {args : Text} (h : IsArgument args) : IsInert args :=
  ⟨h.code, h.noEcho⟩

theorem IsIdentifier.tame {name : Text} (h : IsIdentifier name) : IsTame name := by
  have special : ∀ c ∈ marked, Text.isAlphanumeric c = false ∧ c ≠ '_' := by decide
  intro c hc hm
  rcases h.letters c hc with ha | rfl
  · rw [(special c hm).1] at ha
    simp at ha
  · exact (special _ hm).2 rfl

theorem IsBinding.tame {binding : Text} (h : IsBinding binding) : IsTame binding := by
  rcases h with h | ⟨first, second, hf, hs, rfl⟩
  · exact h.tame
  · have separator : IsTame ", ".toList := by decide
    exact (hf.tame.append separator).append hs.tame

theorem Opening.Valid.inert {opening : Opening} (h : opening.Valid) : IsInert opening.head := by
  cases opening with
  | region name => exact IsArgument.inert h
  | loop iterable binding =>
    obtain ⟨hi, hb⟩ := h
    have word : IsTame " as ".toList := by decide
    have := hi.inert.append (word.append hb.tame) (List.cons_ne_nil _ _)
    rwa [← List.append_assoc] at this

/-! ## Statements -/

/-- Characters of the words that rules write into tags. -/
def IsPlain (text : Text) : Prop := ∀ c ∈ text, c ∉ ['@', '{', '!', '?', '>', '<', '\r', '\n']

instance : DecidablePred IsPlain := fun text =>
  inferInstanceAs (Decidable (∀ c ∈ text, c ∉ ['@', '{', '!', '?', '>', '<', '\r', '\n']))

theorem Call.name_plain (operation : Call) : IsPlain (operation.name ++ "(".toList) := by
  cases operation <;> decide

/-- A statement is source of the author between plain words. -/
theorem Token.Valid.exists_parts {k : Token} (h : k.Valid) :
    ∃ before source after, k.statement = before ++ source ++ after ∧ IsPlain before ∧
      IsInert source ∧ IsPlain after := by
  cases k with
  | text t => exact ⟨[], [], [], rfl, by decide, .nil, by decide⟩
  | echo before expr after escape =>
    cases escape with
    | true => exact ⟨_, expr, _, rfl, by decide, h.2.2.inert, by decide⟩
    | false => exact ⟨_, expr, [], (List.append_nil _).symm, by decide, h.2.2.inert, by decide⟩
  | call operation args => exact ⟨_, args, _, rfl, Call.name_plain operation, h.2.inert, by decide⟩
  | start opening =>
    have inert := Opening.Valid.inert h
    cases opening with
    | loop iterable binding => exact ⟨_, _, _, rfl, by decide, inert, by decide⟩
    | region name => exact ⟨_, _, _, rfl, by decide, inert, by decide⟩
  | stop block =>
    have plain : IsPlain (Token.stop block).statement := by cases block <;> decide
    exact ⟨(Token.stop block).statement, [], [], by simp, plain, .nil, by decide⟩

/-- A tag stands on one line and has no sign in it. -/
theorem notMem_tagged {k : Token} (h : k.Valid) {c : Char} (hc : c = '@' ∨ c = '\r' ∨ c = '\n') :
    c ∉ Artifact.tagged k.statement := by
  obtain ⟨before, source, after, hk, hb, hs, ha⟩ := h.exists_parts
  have hb' : c ∉ before := fun hm => hb _ hm (by rcases hc with rfl | rfl | rfl <;> decide)
  have ha' : c ∉ after := fun hm => ha _ hm (by rcases hc with rfl | rfl | rfl <;> decide)
  have hs' : c ∉ source := by
    rcases hc with rfl | rfl | rfl
    · exact hs.isCode.noSign
    · exact hs.isCode.noReturn
    · exact hs.isCode.noFeed
  rcases hc with rfl | rfl | rfl <;> simp [tagged_eq, hk, hb', ha', hs']

theorem feed_notMem_statement {k : Token} (h : k.Valid) : '\n' ∉ k.statement := by
  have := notMem_tagged h (c := '\n') (by simp)
  simp only [tagged_eq, List.mem_append, not_or] at this
  exact this.1.2

/-- No echo starts in a tag. -/
theorem passes_tagged {k : Token} (h : k.Valid) (escape : Bool) :
    Passes (echoOpen escape) (Artifact.tagged k.statement) := by
  obtain ⟨before, source, after, hk, hb, hs, ha⟩ := h.exists_parts
  obtain ⟨second, hmark, hsecond⟩ :
      ∃ second, echoOpen escape = ['{', second] ∧ (second = '{' ∨ second = '!') := by
    cases escape <;> simp [echoOpen]
  have inside := hs.noEcho escape
  rw [hmark] at inside ⊢
  have front : Passes ['{', second] (['<', '?', 'v', 'm', ' '] ++ before) :=
    .of_notMem (by simpa using fun hm => hb '{' hm (by decide))
  have middle : Passes ['{', second] (source ++ (after ++ [' ', '?', '>'])) := by
    refine .of_pair_append inside (by simp) ?_ ?_
    · simpa using fun hm => ha '{' hm (by decide)
    · rcases hsecond with rfl | rfl
      · simpa using fun hm => ha '{' hm (by decide)
      · simpa using fun hm => ha '!' hm (by decide)
  have := front.append middle
  simpa [tagged_eq, hk] using this

/-- No end of a tag starts in what a tag says. -/
theorem passes_tagClose {k : Token} (h : k.Valid) :
    Passes ['?', '>'] (' ' :: k.statement ++ [' ']) := by
  obtain ⟨before, source, after, hk, hb, hs, ha⟩ := h.exists_parts
  have front : Passes ['?', '>'] (' ' :: before) :=
    .of_notMem (by simpa using fun hm => hb '?' hm (by decide))
  have middle : Passes ['?', '>'] (source ++ (after ++ [' '])) := by
    refine .of_pair_append hs.isCode.noTagEnd (by simp) ?_ ?_
    · simpa using fun hm => ha '?' hm (by decide)
    · simpa using fun hm => ha '>' hm (by decide)
  have := front.append middle
  simpa [hk] using this

end Stencil.Template
