import Mathlib.Data.List.Chain
import Stencil.Proofs.Rewriting
import Stencil.Proofs.Template

/-!
# Templates on the way through the rules

A rule rewrites one form of directive and leaves the others alone, so between two rules a template
is a row of tokens some forms of which are tags already. `written` is the text of that row for the
forms that are done: the template source when none is (`written_source`), the artifact when all are.

* `tokensAll_valid`, `tokensAll_spaced`, `tokensAll_paired`: what is known of the tokens of a valid
  template.
* `written_eq_blanks_append`: the blanks behind a call are those that `written` leaves out once the
  call is done; `written_cons_append_stop` tells the same of the blanks in front of the end of a
  block.
-/

namespace Stencil.Template

open Artifact (Call)

/-! ## Tokens -/

/-- A part of a template between two borders. -/
inductive Token
  | text (text : Text)
  | echo (before expr after : Text) (escape : Bool)
  | call (operation : Call) (args : Text)
  | start (opening : Opening)
  | stop (block : Block)

/-- The forms of directives, each with a rule of its own. -/
inductive Form
  | echo (escape : Bool)
  | call (operation : Call)
  | block (block : Block)
  deriving DecidableEq

mutual

def Item.tokens : Item → List Token
  | .text text => [.text text]
  | .echo before expr after escape => [.echo before expr after escape]
  | .call operation args => [.call operation args]
  | .block opening body => .start opening :: (tokensAll body ++ [.stop opening.block])

def tokensAll : List Item → List Token
  | [] => []
  | item :: items => item.tokens ++ tokensAll items

end

namespace Token

def form? : Token → Option Form
  | .text _ => none
  | .echo _ _ _ escape => some (.echo escape)
  | .call operation _ => some (.call operation)
  | .start opening => some (.block opening.block)
  | .stop block => some (.block block)

/-- The template source of a token. -/
def source : Token → Text
  | .text t => t
  | .echo before expr after escape => echoOpen escape ++ before ++ expr ++ after ++ echoClose escape
  | .call operation args => calling (directive operation) args
  | .start opening => calling opening.block.word opening.head
  | .stop block => '@' :: block.endWord

/-- The statement that a token is rewritten to; texts have none. -/
def statement : Token → Text
  | .text _ => []
  | .echo _ expr _ true => "echo escape(".toList ++ expr ++ ")".toList
  | .echo _ expr _ false => "echo ".toList ++ expr
  | .call operation args => operation.name ++ "(".toList ++ args ++ ")".toList
  | .start (.loop iterable binding) =>
    "foreach (".toList ++ (iterable ++ " as ".toList ++ binding) ++ "):".toList
  | .start (.region name) => "layout.start_section(".toList ++ name ++ ")".toList
  | .stop .loop => "endforeach".toList
  | .stop .region => "layout.stop_section()".toList

/-- The token is a tag when the forms of `tags` are. -/
def isDone (tags : List Form) (k : Token) : Bool :=
  match k.form? with
  | some form => form ∈ tags
  | none => false

/-- The token is a tag that took the blanks behind it. -/
def takesBlanks (tags : List Form) : Token → Bool
  | .call operation _ => .call operation ∈ tags
  | _ => false

/-- The token is a tag that took the blanks in front of it. -/
def takesBefore (tags : List Form) : Token → Bool
  | .stop block => .block block ∈ tags
  | _ => false

end Token

/-- The first token is a tag that took the blanks in front of it. -/
def nextTakes (tags : List Form) : List Token → Bool
  | k :: _ => k.takesBefore tags
  | [] => false

/-- The text of a token in front of others. -/
def Token.piece (tags : List Form) (atStart : Bool) (behind : List Token) (k : Token) : Text :=
  match k with
  | .text t => cut atStart (nextTakes tags behind) t
  | k => if k.isDone tags then Artifact.tagged k.statement else k.source

/-- The text of tokens when the forms of `tags` are tags; `atStart` says that the tokens come right
behind a tag that takes blanks. -/
def written (tags : List Form) : Bool → List Token → Text
  | _, [] => []
  | atStart, k :: ks => k.piece tags atStart ks ++ written tags (k.takesBlanks tags) ks

/-! ## Valid tokens -/

/-- What is known of a token of a valid template. -/
def Token.Valid : Token → Prop
  | .text t => IsText t
  | .echo before expr after escape => IsBlanks before ∧ IsBlanks after ∧ IsExpression escape expr
  | .call operation args => operation ≠ .startSection ∧ IsArgument args
  | .start opening => opening.Valid
  | .stop _ => True

def Token.isText : Token → Bool
  | .text _ => true
  | _ => false

def Spaced (ks : List Token) : Prop := ks.IsChain fun j k => ¬(j.isText = true ∧ k.isText = true)

/-- Blocks of a kind start and stop in turns. -/
inductive Paired (block : Block) : List Token → Prop
  | nil : Paired block []
  | other {k : Token} {ks : List Token} (different : k.form? ≠ some (.block block))
      (rest : Paired block ks) : Paired block (k :: ks)
  | pair {opening : Opening} {body ks : List Token} (kind : opening.block = block)
      (different : ∀ k ∈ body, k.form? ≠ some (.block block)) (rest : Paired block ks) :
      Paired block (.start opening :: (body ++ .stop block :: ks))

theorem Paired.append {block : Block} {ks js : List Token} (hk : Paired block ks)
    (hj : Paired block js) : Paired block (ks ++ js) := by
  induction hk with
  | nil => exact hj
  | other different _ ih => exact .other different ih
  | pair kind different _ ih =>
    have := Paired.pair kind different ih
    simpa using this

mutual

theorem Item.tokens_valid {inside : List Block} :
    ∀ {item : Item}, item.Valid inside → ∀ k ∈ item.tokens, k.Valid
  | .text text, h => by
    simpa [Item.tokens, Token.Valid, Item.Valid] using h
  | .echo before expr after escape, h => by
    simpa [Item.tokens, Token.Valid, Item.Valid] using h
  | .call operation args, h => by
    simpa [Item.tokens, Token.Valid, Item.Valid] using h
  | .block opening body, h => by
    obtain ⟨-, valid, rest⟩ := h
    intro k hk
    simp only [Item.tokens, List.mem_cons, List.mem_append, List.not_mem_nil, or_false] at hk
    rcases hk with rfl | hk | rfl
    · exact valid
    · exact tokensAll_valid rest k hk
    · trivial

theorem tokensAll_valid {inside : List Block} :
    ∀ {items : List Item}, AllValid inside items → ∀ k ∈ tokensAll items, k.Valid
  | [], _ => by simp [tokensAll]
  | item :: items, h => by
    obtain ⟨valid, rest, -⟩ := h
    intro k hk
    simp only [tokensAll, List.mem_append] at hk
    rcases hk with hk | hk
    · exact Item.tokens_valid valid k hk
    · exact tokensAll_valid rest k hk

end

mutual

/-- No block is inside one of its kind. -/
theorem Item.tokens_different {inside : List Block} {block : Block} (hb : block ∈ inside) :
    ∀ {item : Item}, item.Valid inside → ∀ k ∈ item.tokens, k.form? ≠ some (.block block)
  | .text text, _ => by simp [Item.tokens, Token.form?]
  | .echo before expr after escape, _ => by simp [Item.tokens, Token.form?]
  | .call operation args, _ => by simp [Item.tokens, Token.form?]
  | .block opening body, h => by
    obtain ⟨outside, -, rest⟩ := h
    have hne : opening.block ≠ block := by
      rintro rfl
      exact outside hb
    intro k hk
    simp only [Item.tokens, List.mem_cons, List.mem_append, List.not_mem_nil, or_false] at hk
    rcases hk with rfl | hk | rfl
    · simpa [Token.form?] using hne
    · exact tokensAll_different (List.mem_cons_of_mem _ hb) rest k hk
    · simpa [Token.form?] using hne

theorem tokensAll_different {inside : List Block} {block : Block} (hb : block ∈ inside) :
    ∀ {items : List Item}, AllValid inside items →
      ∀ k ∈ tokensAll items, k.form? ≠ some (.block block)
  | [], _ => by simp [tokensAll]
  | item :: items, h => by
    obtain ⟨valid, rest, -⟩ := h
    intro k hk
    simp only [tokensAll, List.mem_append] at hk
    rcases hk with hk | hk
    · exact Item.tokens_different hb valid k hk
    · exact tokensAll_different hb rest k hk

end

mutual

theorem Item.tokens_paired {inside : List Block} (block : Block) :
    ∀ {item : Item}, item.Valid inside → Paired block item.tokens
  | .text text, _ => .other (by simp [Token.form?]) .nil
  | .echo before expr after escape, _ => .other (by simp [Token.form?]) .nil
  | .call operation args, _ => .other (by simp [Token.form?]) .nil
  | .block opening body, h => by
    obtain ⟨-, -, rest⟩ := h
    by_cases hb : opening.block = block
    · have hm : block ∈ opening.block :: inside := by simp [hb]
      have different := tokensAll_different hm rest
      have := Paired.pair hb different .nil
      simpa [Item.tokens, hb] using this
    · have hform : ∀ k, k = Token.start opening ∨ k = Token.stop opening.block →
          k.form? ≠ some (.block block) := by
        rintro k (rfl | rfl) <;> simpa [Token.form?] using hb
      unfold Item.tokens
      exact .other (hform _ (Or.inl rfl))
        ((tokensAll_paired block rest).append (.other (hform _ (Or.inr rfl)) .nil))

theorem tokensAll_paired {inside : List Block} (block : Block) :
    ∀ {items : List Item}, AllValid inside items → Paired block (tokensAll items)
  | [], _ => .nil
  | item :: items, h => by
    obtain ⟨valid, rest, -⟩ := h
    unfold tokensAll
    exact (Item.tokens_paired block valid).append (tokensAll_paired block rest)

end

theorem Spaced.tail {k : Token} {ks : List Token} (h : Spaced (k :: ks)) : Spaced ks :=
  (List.isChain_cons.mp h).2

/-- Behind a text stands something else. -/
theorem Spaced.head {t : Text} {k : Token} {ks : List Token} (h : Spaced (.text t :: k :: ks)) :
    k.isText = false := by
  have := (List.isChain_cons.mp h).1 k rfl
  cases hk : k.isText
  · rfl
  · exact absurd ⟨rfl, hk⟩ this

theorem Spaced.of_append_left {js ks : List Token} (h : Spaced (js ++ ks)) : Spaced js :=
  (List.isChain_append.mp h).1

theorem Spaced.of_append_right {js ks : List Token} (h : Spaced (js ++ ks)) : Spaced ks :=
  (List.isChain_append.mp h).2.1

theorem isText_head_tokensAll {items : List Item} {k : Token}
    (hk : (tokensAll items).head? = some k) (ht : k.isText = true) : startsWithText items = true := by
  cases items with
  | nil => simp [tokensAll] at hk
  | cons item items =>
    cases item with
    | text t => rfl
    | echo before expr after escape =>
      obtain rfl : Token.echo before expr after escape = k := by
        simpa [tokensAll, Item.tokens] using hk
      simp [Token.isText] at ht
    | call operation args =>
      obtain rfl : Token.call operation args = k := by simpa [tokensAll, Item.tokens] using hk
      simp [Token.isText] at ht
    | block opening body =>
      obtain rfl : Token.start opening = k := by simpa [tokensAll, Item.tokens] using hk
      simp [Token.isText] at ht

mutual

theorem Item.tokens_spaced {inside : List Block} :
    ∀ {item : Item}, item.Valid inside → Spaced item.tokens
  | .text _, _ => List.isChain_singleton _
  | .echo _ _ _ _, _ => List.isChain_singleton _
  | .call _ _, _ => List.isChain_singleton _
  | .block opening body, h => by
    obtain ⟨-, -, rest⟩ := h
    unfold Item.tokens
    refine List.isChain_cons.mpr ⟨fun k _ => by simp [Token.isText], ?_⟩
    refine List.isChain_append.mpr ⟨tokensAll_spaced rest, List.isChain_singleton _, ?_⟩
    intro j _ k hk
    obtain rfl : Token.stop opening.block = k := by simpa using hk
    simp [Token.isText]

theorem tokensAll_spaced {inside : List Block} :
    ∀ {items : List Item}, AllValid inside items → Spaced (tokensAll items)
  | [], _ => List.isChain_nil
  | item :: items, h => by
    obtain ⟨valid, rest, apart⟩ := h
    unfold tokensAll
    refine List.isChain_append.mpr ⟨Item.tokens_spaced valid, tokensAll_spaced rest, ?_⟩
    rintro j hj k hk ⟨left, right⟩
    have hfalse : startsWithText items = false := by
      refine apart ?_
      cases item with
      | text t => rfl
      | echo before expr after escape =>
        obtain rfl : Token.echo before expr after escape = j := by simpa [Item.tokens] using hj
        simp [Token.isText] at left
      | call operation args =>
        obtain rfl : Token.call operation args = j := by simpa [Item.tokens] using hj
        simp [Token.isText] at left
      | block opening body =>
        obtain rfl : Token.stop opening.block = j := by
          rw [Item.tokens, ← List.cons_append, List.getLast?_concat] at hj
          simpa using hj
        simp [Token.isText] at left
    rw [isText_head_tokensAll hk right] at hfalse
    simp at hfalse

end

/-! ## Template source -/

theorem piece_source (atStart : Bool) (ks : List Token) (k : Token) (hs : atStart = false) :
    k.piece [] atStart ks = k.source := by
  subst hs
  have hn : nextTakes [] ks = false := by
    cases ks with
    | nil => rfl
    | cons j ks => cases j <;> simp [nextTakes, Token.takesBefore]
  cases k <;> simp [Token.piece, Token.source, Token.isDone, Token.form?, cut, hn]

/-- Before the first rule the text of the tokens is that of each. -/
theorem written_nil_tags (ks : List Token) : written [] false ks = ks.flatMap Token.source := by
  induction ks with
  | nil => rfl
  | cons k ks ih =>
    have hb : k.takesBlanks [] = false := by cases k <;> simp [Token.takesBlanks]
    rw [written, hb, ih, piece_source false ks k rfl, List.flatMap_cons]

mutual

theorem Item.source_eq : ∀ item : Item, item.source = item.tokens.flatMap Token.source
  | .text _ => by simp [Item.source, Item.tokens, Token.source]
  | .echo _ _ _ _ => by simp [Item.source, Item.tokens, Token.source]
  | .call _ _ => by simp [Item.source, Item.tokens, Token.source]
  | .block opening body => by
    simp [Item.source, Item.tokens, Token.source, sourceAll_eq body]

theorem sourceAll_eq : ∀ items : List Item, sourceAll items = (tokensAll items).flatMap Token.source
  | [] => rfl
  | item :: items => by
    simp [sourceAll, tokensAll, Item.source_eq item, sourceAll_eq items]

end

theorem written_source (items : List Item) :
    written [] false (tokensAll items) = sourceAll items := by
  rw [written_nil_tags, sourceAll_eq]

/-! ## Blanks at the borders -/

theorem tagged_eq (body : Text) :
    Artifact.tagged body = ['<', '?', 'v', 'm', ' '] ++ body ++ [' ', '?', '>'] := rfl

theorem Token.eq_text {k : Token} (h : k.isText = true) : ∃ t, k = .text t := by
  cases k with
  | text t => exact ⟨t, rfl⟩
  | _ => simp [Token.isText] at h

theorem piece_eq {tags : List Form} {atStart : Bool} {behind : List Token} {k : Token}
    (h : k.isText = false) :
    k.piece tags atStart behind =
      if k.isDone tags then Artifact.tagged k.statement else k.source := by
  cases k with
  | text t => simp [Token.isText] at h
  | _ => rfl

theorem solid_source {k : Token} (h : k.isText = false) : k.source.Solid := by
  cases k with
  | text t => simp [Token.isText] at h
  | echo before expr after escape =>
    have source : (Token.echo before expr after escape).source =
        '{' :: ((echoOpen escape).tail ++ before ++ expr ++ after ++ (echoClose escape).take 1 ++
          ['}']) := by
      cases escape <;> simp [Token.source, echoOpen, echoClose]
    rw [source]
    exact Text.solid_of_ends _ (by decide) (by decide)
  | call operation args =>
    have source : (Token.call operation args).source =
        '@' :: (directive operation ++ '(' :: args ++ [')']) := by simp [Token.source, calling]
    rw [source]
    exact Text.solid_of_ends _ (by decide) (by decide)
  | start opening =>
    have source : (Token.start opening).source =
        '@' :: (opening.block.word ++ '(' :: opening.head ++ [')']) := by
      simp [Token.source, calling]
    rw [source]
    exact Text.solid_of_ends _ (by decide) (by decide)
  | stop block =>
    cases block with
    | loop => exact Text.solid_of_ends "endforeac".toList (by decide) (by decide)
    | region => exact Text.solid_of_ends "endsectio".toList (by decide) (by decide)

theorem solid_tagged (body : Text) : (Artifact.tagged body).Solid := by
  have source : Artifact.tagged body = '<' :: (['?', 'v', 'm', ' '] ++ body ++ [' ', '?'] ++ ['>']) := by
    simp [tagged_eq]
  rw [source]
  exact Text.solid_of_ends _ (by decide) (by decide)

/-- A directive neither starts nor ends with a blank, be it a tag or not. -/
theorem solid_piece {tags : List Form} {atStart : Bool} {behind : List Token} {k : Token}
    (h : k.isText = false) : (k.piece tags atStart behind).Solid := by
  rw [piece_eq h]
  split
  · exact solid_tagged _
  · exact solid_source h

/-- Tokens that start with no text do not start with a blank. -/
theorem written_noBlankFirst {tags : List Form} {atStart : Bool} {ks : List Token}
    (h : ∀ k, ks.head? = some k → k.isText = false) : (written tags atStart ks).NoBlankFirst := by
  cases ks with
  | nil => intro c hc; simp [written] at hc
  | cons k ks =>
    have solid : (k.piece tags atStart ks).Solid := solid_piece (h k rfl)
    exact solid.first.append_left solid.nonempty _

/-- The blanks at the start of a text are in front of what is left without them, whatever happens at
its end. -/
theorem cut_eq_blanks_append (atEnd : Bool) (t : Text) :
    ∃ blanks, Text.AllBlank blanks ∧ cut false atEnd t = blanks ++ cut true atEnd t ∧
      (cut true atEnd t).NoBlankFirst := by
  obtain ⟨blanks, hblanks, hsplit⟩ := Text.exists_blanks_trimStart t
  have first := Text.noBlankFirst_trimStart t
  cases atEnd with
  | false => exact ⟨blanks, hblanks, by simpa [cut] using hsplit, by simpa [cut] using first⟩
  | true =>
    by_cases hnil : t.trimStart = []
    · -- The text is blanks from end to end, and nothing is left of it.
      rw [hnil, List.append_nil] at hsplit
      have none : t.trimEnd = [] := Text.trimEnd_eq_nil (hsplit ▸ hblanks)
      exact ⟨[], .nil, by simp [cut, none, hnil], by simp [cut, hnil, Text.NoBlankFirst]⟩
    · have hne := Text.trimEnd_ne_nil hnil first
      refine ⟨blanks, hblanks, ?_, by simpa [cut] using first.trimEnd⟩
      simp only [cut, Bool.false_eq_true, ↓reduceIte]
      rw [← Text.trimEnd_append fun h => absurd h hne, ← hsplit]

/-- The blanks behind a tag that takes them are in front of what is written behind it. -/
theorem written_eq_blanks_append (tags : List Form) {ks : List Token} (hs : Spaced ks) :
    ∃ blanks, Text.AllBlank blanks ∧ written tags false ks = blanks ++ written tags true ks ∧
      (written tags true ks).NoBlankFirst := by
  cases ks with
  | nil => exact ⟨[], .nil, rfl, by intro c hc; simp [written] at hc⟩
  | cons k ks =>
    cases ht : k.isText with
    | false =>
      refine ⟨[], .nil, ?_, written_noBlankFirst ?_⟩
      · rw [List.nil_append, written, written, piece_eq ht, piece_eq ht]
      · intro j hj
        obtain rfl : k = j := by simpa using hj
        exact ht
    | true =>
      obtain ⟨t, rfl⟩ := Token.eq_text ht
      obtain ⟨blanks, hblanks, hcut, first⟩ := cut_eq_blanks_append (nextTakes tags ks) t
      refine ⟨blanks, hblanks, ?_, ?_⟩
      · simp only [written, Token.piece, hcut, List.append_assoc]
      · simp only [written, Token.piece]
        by_cases hnil : cut true (nextTakes tags ks) t = []
        · rw [hnil, List.nil_append]
          refine written_noBlankFirst fun j hj => ?_
          cases ks with
          | nil => simp at hj
          | cons l ks =>
            obtain rfl : l = j := by simpa using hj
            exact hs.head
        · exact first.append_left hnil _

/-! ## The end of a block -/

/-- What stands in front of the end of a block that is no tag yet. -/
theorem written_append_stop {tags : List Form} {block : Block} (hb : .block block ∉ tags)
    (atStart : Bool) (body ks : List Token) :
    written tags atStart (body ++ .stop block :: ks) =
      written tags atStart body ++ ('@' :: block.endWord ++ written tags false ks) := by
  induction body generalizing atStart with
  | nil =>
    simp [written, Token.piece, Token.isDone, Token.form?, hb, Token.source, Token.takesBlanks]
  | cons k body ih =>
    have hnext : nextTakes tags (body ++ .stop block :: ks) = nextTakes tags body := by
      cases body with
      | nil => simp [nextTakes, Token.takesBefore, hb]
      | cons j body => rfl
    have hpiece : k.piece tags atStart (body ++ .stop block :: ks) = k.piece tags atStart body := by
      cases k <;> simp [Token.piece, hnext]
    rw [List.cons_append, written, written, hpiece, ih, List.append_assoc]

theorem isDone_cons_form {tags : List Form} {form : Form} {k : Token} (hk : k.form? ≠ some form) :
    k.isDone (form :: tags) = k.isDone tags := by
  unfold Token.isDone
  cases hf : k.form? with
  | none => rfl
  | some other =>
    have hne : other ≠ form := by
      rintro rfl
      exact hk hf
    simp [hne]

/-- A form that no token has does not matter, but for the end of the tokens. -/
theorem piece_cons_form {tags : List Form} {form : Form} {k : Token} (hk : k.form? ≠ some form)
    (atStart : Bool) {behind behind' : List Token}
    (hnext : nextTakes (form :: tags) behind = nextTakes tags behind') :
    k.piece (form :: tags) atStart behind = k.piece tags atStart behind' := by
  cases ht : k.isText with
  | true =>
    obtain ⟨t, rfl⟩ := Token.eq_text ht
    simp [Token.piece, hnext]
  | false => rw [piece_eq ht, piece_eq ht, isDone_cons_form hk]

theorem takesBlanks_cons_form {tags : List Form} {form : Form} {k : Token}
    (hk : k.form? ≠ some form) : k.takesBlanks (form :: tags) = k.takesBlanks tags := by
  cases k with
  | call operation args =>
    simp only [Token.form?, ne_eq, Option.some.injEq] at hk
    simp [Token.takesBlanks, hk]
  | _ => rfl

theorem takesBefore_cons_form {tags : List Form} {form : Form} {k : Token}
    (hk : k.form? ≠ some form) : k.takesBefore (form :: tags) = k.takesBefore tags := by
  cases k with
  | stop block =>
    simp only [Token.form?, ne_eq, Option.some.injEq] at hk
    simp [Token.takesBefore, hk]
  | _ => rfl

/-- Once the end of a block is a tag, the blanks in front of it are gone. -/
theorem written_cons_append_stop {tags : List Form} {block : Block} (atStart : Bool)
    {body : List Token} (ks : List Token) (hs : Spaced body)
    (hd : ∀ k ∈ body, k.form? ≠ some (.block block)) :
    written (.block block :: tags) atStart (body ++ .stop block :: ks) =
      (written tags atStart body).trimEnd ++
        (Artifact.tagged (Token.stop block).statement ++
          written (.block block :: tags) false ks) := by
  induction body generalizing atStart with
  | nil =>
    simp [written, Token.piece, Token.isDone, Token.form?, Token.takesBlanks]
  | cons k body ih =>
    have hk := hd k List.mem_cons_self
    have rest := ih (k.takesBlanks tags) hs.tail fun j hj => hd j (List.mem_cons_of_mem _ hj)
    rw [List.cons_append, written, written, takesBlanks_cons_form hk, rest, ← List.append_assoc]
    congr 1
    cases body with
    | nil =>
      -- The last token: a text loses its blanks, a directive has none.
      simp only [List.nil_append, written, List.append_nil, Text.trimEnd_nil]
      cases ht : k.isText with
      | false =>
        have hpiece : k.piece (.block block :: tags) atStart (.stop block :: ks) =
            k.piece tags atStart [] := by
          rw [piece_eq ht, piece_eq ht, isDone_cons_form hk]
        rw [hpiece, Text.trimEnd_eq_self (solid_piece ht).last]
      | true =>
        cases k with
        | text t => simp [Token.piece, nextTakes, Token.takesBefore, cut]
        | _ => simp [Token.isText] at ht
    | cons j body =>
      have hj := hd j (by simp)
      have hpiece : k.piece (.block block :: tags) atStart (j :: body ++ .stop block :: ks) =
          k.piece tags atStart (j :: body) :=
        piece_cons_form hk atStart (takesBefore_cons_form hj)
      rw [hpiece]
      symm
      refine Text.trimEnd_append fun hnil => ?_
      cases ht : k.isText with
      | false => exact (solid_piece ht).last
      | true =>
        -- Behind a text stands a directive, of which something is left.
        exfalso
        obtain ⟨t, rfl⟩ := Token.eq_text ht
        have hn : j.piece tags ((Token.text t).takesBlanks tags) body ≠ [] := (solid_piece hs.head).nonempty
        refine Text.trimEnd_ne_nil ?_ (written_noBlankFirst fun l hl => ?_) hnil
        · simp [written, hn]
        · obtain rfl : j = l := by simpa using hl
          exact hs.head

end Stencil.Template
