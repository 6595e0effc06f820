import Stencil.Proofs.BlankLines
import Stencil.Proofs.Statements

/-!
# Compiling a template

Each built-in rule but the one for plain code and the one for blank lines belongs to one form of
directives. Proved here:

* `passes_sign`, `passes_echo`, `passes_other`: no match of a rule starts in a text, in a tag or in
  a directive of another form;
* `replaceFrom_written` and `replaceFrom_written_block`: so a rule turns the directives of its form
  into tags and leaves everything else alone;
* `compile_sourceAll`: all rules together turn a valid template into texts and tags.
-/

namespace Stencil.Template

open Artifact (Call)

/-! ## Words of directives -/

/-- What stands behind the sign of a directive. A section is started with the same word, whether it
has a body or not. -/
inductive Word
  | directive (operation : Call)
  | foreach
  | endOf (block : Block)
  /-- Plain code, which is no part of a template. -/
  | raw
  deriving DecidableEq

namespace Word

def text : Word → Text
  | directive operation => Template.directive operation
  | foreach => Block.word .loop
  | endOf block => block.endWord
  | raw => "rawcode".toList

def all : List Word :=
  Call.all.map directive ++ [foreach, endOf .loop, endOf .region, raw]

theorem mem_all (word : Word) : word ∈ all := by
  cases word with
  | directive operation => cases operation <;> decide
  | endOf block => cases block <;> decide
  | foreach => decide
  | raw => decide

end Word

def Block.startWord : Block → Word
  | .loop => .foreach
  | .region => .directive .startSection

theorem Block.startWord_text (block : Block) : block.startWord.text = block.word := by
  cases block <;> rfl

def Token.word? : Token → Option Word
  | .text _ => none
  | .echo _ _ _ _ => none
  | .call operation _ => some (.directive operation)
  | .start opening => some opening.block.startWord
  | .stop block => some (.endOf block)

/-- Neither of two texts starts with the other. -/
def Apart (a b : Text) : Prop := ¬ a <+: b ∧ ¬ b <+: a

instance (a b : Text) : Decidable (Apart a b) :=
  inferInstanceAs (Decidable (¬ a <+: b ∧ ¬ b <+: a))

theorem Apart.not_prefix_append {a b : Text} (h : Apart a b) (rest : Text) : ¬ a <+: b ++ rest := by
  intro hp
  rcases List.prefix_or_prefix_of_prefix hp (List.prefix_append b rest) with hl | hr
  · exact h.1 hl
  · exact h.2 hr

/-- No directive can be taken for another. -/
theorem Word.text_apart {a b : Word} (h : a ≠ b) : Apart a.text b.text := by
  have table : ∀ a ∈ all, ∀ b ∈ all, a ≠ b → Apart a.text b.text := by decide
  exact table a a.mem_all b b.mem_all h

theorem Word.notMem_text (word : Word) : '@' ∉ word.text ∧ '{' ∉ word.text := by
  have table : ∀ word ∈ all, '@' ∉ word.text ∧ '{' ∉ word.text := by decide
  exact table word word.mem_all

def rawPattern : Pattern :=
  ⟨[.literal ('@' :: Word.raw.text), .blanks, .capture .shortAcrossLines, .blanks,
    .literal ("@endrawcode".toList)]⟩

/-! ## Passing over -/

theorem cut_subset {atStart atEnd : Bool} {text : Text} {c : Char}
    (h : c ∈ cut atStart atEnd text) : c ∈ text := by
  have first (t : Text) (hc : c ∈ t.trimStart) : c ∈ t := by
    obtain ⟨blanks, -, ht⟩ := Text.exists_blanks_trimStart t
    rw [ht]
    exact List.mem_append_right _ hc
  have last (t : Text) (hc : c ∈ t.trimEnd) : c ∈ t := by
    obtain ⟨blanks, -, ht⟩ := Text.exists_blanks_trimEnd t
    rw [ht]
    exact List.mem_append_left _ hc
  unfold cut at h
  cases atStart <;> cases atEnd
  · exact h
  · exact last _ h
  · exact first _ h
  · exact first _ (last _ h)

/-- A directive is its sign, its word and source without a sign. -/
theorem Token.source_eq {k : Token} {word : Word} (h : k.Valid) (hw : k.word? = some word) :
    ∃ source : Text, k.source = '@' :: word.text ++ source ∧ '@' ∉ source ∧
      ∀ escape, Passes (echoOpen escape) source := by
  have passes {args : Text} (ha : IsInert args) (escape : Bool) :
      Passes (echoOpen escape) ('(' :: args ++ [')']) := by
    have sign : Passes (echoOpen escape) ['('] := by
      cases escape <;> exact .of_notMem (by decide)
    have behind : Passes (echoOpen escape) (args ++ [')']) := by
      have := ha.noEcho escape
      cases escape <;> exact .of_pair_append this (by decide) (by decide) (by decide)
    exact sign.append behind
  cases k with
  | text t => simp [Token.word?] at hw
  | echo before expr after escape => simp [Token.word?] at hw
  | call operation args =>
    obtain rfl := Option.some.inj hw
    exact ⟨_, rfl, by simp [h.2.code.noSign], passes h.2.inert⟩
  | start opening =>
    obtain rfl := Option.some.inj hw
    have inert := Opening.Valid.inert h
    rw [opening.block.startWord_text]
    exact ⟨_, rfl, by simp [inert.isCode.noSign], passes inert⟩
  | stop block =>
    obtain rfl := Option.some.inj hw
    exact ⟨[], (List.append_nil _).symm, by simp, fun _ => .nil _⟩

theorem IsBlanks.notMem {blanks : Text} (h : IsBlanks blanks) {c : Char}
    (hc : Text.isBlank c = false) : c ∉ blanks := by
  intro hm
  simp [(h c hm).1] at hc

theorem sign_notMem_echo {before expr after : Text} {escape : Bool}
    (h : (Token.echo before expr after escape).Valid) :
    '@' ∉ (Token.echo before expr after escape).source := by
  obtain ⟨hb, ha, he⟩ := h
  have := he.code.noSign
  have := hb.notMem (c := '@') (by decide)
  have := ha.notMem (c := '@') (by decide)
  cases escape <;> simp_all [Token.source, echoOpen, echoClose]

section Passing

variable {tags : List Form} {atStart : Bool} {behind : List Token} {k : Token}

/-- A directive starts only where one with the same word stands. -/
theorem passes_sign (word : Word) (valid : k.Valid)
    (other : k.isDone tags = false → k.word? ≠ some word) :
    Passes ('@' :: word.text) (k.piece tags atStart behind) := by
  cases ht : k.isText with
  | true =>
    obtain ⟨t, rfl⟩ := Token.eq_text ht
    refine .of_notMem fun hm => ?_
    exact valid.plain _ (cut_subset hm) (by decide)
  | false =>
    rw [piece_eq ht]
    cases hd : k.isDone tags with
    | true => exact .of_notMem (notMem_tagged valid (Or.inl rfl))
    | false =>
      cases hw : k.word? with
      | some found =>
        obtain ⟨source, hsource, hsign, -⟩ := k.source_eq valid hw
        simp only [hsource, Bool.false_eq_true, ↓reduceIte]
        have apart : Apart word.text found.text := by
          refine Word.text_apart ?_
          rintro rfl
          exact other hd hw
        exact .of_other found.notMem_text.1 hsign apart.1 apart.2
      | none =>
        cases k with
        | text t => simp [Token.isText] at ht
        | echo before expr after escape => exact .of_notMem (sign_notMem_echo valid)
        | call operation args => simp [Token.word?] at hw
        | start opening => simp [Token.word?] at hw
        | stop block => simp [Token.word?] at hw

/-- An echo starts only where one of its kind stands, when the escaped echoes are tags before the
raw ones are. -/
theorem passes_echo {escape : Bool} (valid : k.Valid)
    (other : k.isDone tags = false → ∀ e, k.form? = some (.echo e) → escape = true ∧ e = false) :
    Passes (echoOpen escape) (k.piece tags atStart behind) := by
  have free {piece : Text} (h : '{' ∉ piece) : Passes (echoOpen escape) piece := by
    cases escape <;> exact .of_notMem h
  cases ht : k.isText with
  | true =>
    obtain ⟨t, rfl⟩ := Token.eq_text ht
    exact free fun hm => valid.plain _ (cut_subset hm) (by decide)
  | false =>
    rw [piece_eq ht]
    cases hd : k.isDone tags with
    | true => exact passes_tagged valid escape
    | false =>
      cases hw : k.word? with
      | some word =>
        obtain ⟨source, hsource, -, hpasses⟩ := k.source_eq valid hw
        simp only [hsource, Bool.false_eq_true, ↓reduceIte]
        refine Passes.append (free ?_) (hpasses escape)
        simp [word.notMem_text.2]
      | none =>
        cases k with
        | text t => simp [Token.isText] at ht
        | call operation args => simp [Token.word?] at hw
        | start opening => simp [Token.word?] at hw
        | stop block => simp [Token.word?] at hw
        | echo before expr after e =>
          obtain ⟨rfl, rfl⟩ := other hd e rfl
          obtain ⟨hb, ha, he⟩ := valid
          have source : (Token.echo before expr after false).source =
              '{' :: ['!'] ++ (before ++ expr ++ after ++ ['!', '}']) := by
            simp [Token.source, echoOpen, echoClose]
          have hb' := hb.notMem (c := '{') (by decide)
          have ha' := ha.notMem (c := '{') (by decide)
          simp only [Bool.false_eq_true, ↓reduceIte, source]
          show Passes ['{', '{'] _
          exact .of_other (by decide) (by simp [hb', ha', he.noOpener]) (by decide) (by decide)

def Form.mark : Form → Text
  | .echo escape => echoOpen escape
  | .call operation => '@' :: directive operation
  | .block b => '@' :: b.word

theorem Form.exists_segments (form : Form) :
    ∃ segments, form.pattern.segments = .literal form.mark :: segments := by
  cases form <;> exact ⟨_, rfl⟩

/-- The forms whose rules have to come first are tags: escaped echoes are before raw ones, and
sections with a body before those without. -/
def Form.Ready (tags : List Form) : Form → Prop
  | .echo false => .echo true ∈ tags
  | .call .startSection => .block .region ∈ tags
  | _ => True

theorem isDone_eq {form : Form} (hk : k.form? = some form) :
    k.isDone tags = decide (form ∈ tags) := by
  simp [Token.isDone, hk]

/-- A call of another form has another word: sections with a body are tags before those without. -/
theorem word?_ne_directive {operation : Call} (ready : (Form.call operation).Ready tags)
    (hk : k.form? ≠ some (.call operation)) (hd : k.isDone tags = false) :
    k.word? ≠ some (.directive operation) := by
  intro hw
  cases k with
  | text t => simp [Token.word?] at hw
  | echo before expr after escape => simp [Token.word?] at hw
  | call other args =>
    obtain rfl : other = operation := by simpa [Token.word?] using hw
    exact hk rfl
  | stop block => simp [Token.word?] at hw
  | start opening =>
    cases hb : opening.block with
    | loop => simp [Token.word?, hb, Block.startWord] at hw
    | region =>
      obtain rfl : Call.startSection = operation := by
        simpa [Token.word?, hb, Block.startWord] using hw
      have hmem : Form.block .region ∈ tags := ready
      simp [Token.isDone, Token.form?, hb, hmem] at hd

/-- A valid call is no start of a section. -/
theorem word?_ne_startWord {block : Block} (valid : k.Valid)
    (hk : k.form? ≠ some (.block block)) : k.word? ≠ some block.startWord := by
  intro hw
  cases k with
  | text t => simp [Token.word?] at hw
  | echo before expr after escape => simp [Token.word?] at hw
  | call other args =>
    cases block with
    | loop => simp [Token.word?, Block.startWord] at hw
    | region =>
      obtain rfl : other = .startSection := by simpa [Token.word?, Block.startWord] using hw
      exact valid.1 rfl
  | stop other => cases block <;> simp [Token.word?, Block.startWord] at hw
  | start opening =>
    refine hk (congrArg (some ∘ Form.block) ?_)
    cases hb : opening.block <;> cases block <;> simp_all [Token.word?, Block.startWord]

/-- The end of a block of another kind has another word. -/
theorem word?_ne_endOf {block : Block} (hk : k.form? ≠ some (.block block)) :
    k.word? ≠ some (.endOf block) := by
  intro hw
  cases k with
  | text t => simp [Token.word?] at hw
  | echo before expr after escape => simp [Token.word?] at hw
  | call other args => simp [Token.word?] at hw
  | start opening => cases hb : opening.block <;> simp [Token.word?, hb, Block.startWord] at hw
  | stop other =>
    obtain rfl : other = block := by simpa [Token.word?] using hw
    exact hk rfl

/-- No match of a rule starts in a token of another form. -/
theorem passes_other {form : Form} (ready : form.Ready tags) (valid : k.Valid)
    (hk : k.form? ≠ some form) : Passes form.mark (k.piece tags atStart behind) := by
  cases form with
  | echo escape =>
    refine passes_echo valid fun hd e he => ?_
    have hne : e ≠ escape := by
      rintro rfl
      exact hk he
    cases escape with
    | true => exact ⟨rfl, by simpa using hne⟩
    | false =>
      obtain rfl : e = true := by simpa using hne
      have hmem : Form.echo true ∈ tags := ready
      simp [isDone_eq he, hmem] at hd
  | call operation =>
    exact passes_sign (.directive operation) valid fun hd => word?_ne_directive ready hk hd
  | block b =>
    have passes : Passes ('@' :: b.startWord.text) (k.piece tags atStart behind) :=
      passes_sign _ valid fun _ => word?_ne_startWord valid hk
    rw [b.startWord_text] at passes
    exact passes

/-- The end of a block of another kind is not that of this one. -/
theorem passes_end {block : Block} (valid : k.Valid) (hk : k.form? ≠ some (.block block)) :
    Passes ('@' :: block.endWord) (k.piece tags atStart behind) :=
  passes_sign (.endOf block) valid fun _ => word?_ne_endOf hk

theorem word?_ne_raw (k : Token) : k.word? ≠ some .raw := by
  cases k with
  | start opening => cases hb : opening.block <;> simp [Token.word?, hb, Block.startWord]
  | _ => simp [Token.word?]

end Passing

theorem passes_written {mark : Text} {tags : List Form} {ks : List Token}
    (h : ∀ k ∈ ks, ∀ atStart behind, Passes mark (k.piece tags atStart behind)) (atStart : Bool) :
    Passes mark (written tags atStart ks) := by
  induction ks generalizing atStart with
  | nil => exact .nil mark
  | cons k ks ih =>
    exact (h k List.mem_cons_self atStart ks).append
      (ih (fun j hj => h j (List.mem_cons_of_mem _ hj)) _)

/-! ## One rule -/

theorem piece_done {tags : List Form} {atStart : Bool} {behind : List Token} {k : Token}
    {form : Form} (hk : k.form? = some form) (done : form ∈ tags) :
    k.piece tags atStart behind = Artifact.tagged k.statement := by
  have ht : k.isText = false := by cases k <;> simp_all [Token.isText, Token.form?]
  simp [piece_eq ht, isDone_eq hk, done]

theorem piece_new {tags : List Form} {atStart : Bool} {behind : List Token} {k : Token}
    {form : Form} (hk : k.form? = some form) (new : form ∉ tags) :
    k.piece tags atStart behind = k.source := by
  have ht : k.isText = false := by cases k <;> simp_all [Token.isText, Token.form?]
  simp [piece_eq ht, isDone_eq hk, new]

/-- Blanks in front of a token are taken by ends of blocks only. -/
theorem nextTakes_cons_form {form : Form} (flat : ∀ b, form ≠ .block b) (tags : List Form)
    (ks : List Token) : nextTakes (form :: tags) ks = nextTakes tags ks := by
  cases ks with
  | nil => rfl
  | cons k ks =>
    cases k with
    | stop block => simp [nextTakes, Token.takesBefore, (flat block).symm]
    | _ => rfl

section Rules

variable {form : Form} {tags : List Form}

/-- The rule of a form passes over a token of another form. -/
theorem replaceFrom_other (ready : form.Ready tags) {k : Token} (valid : k.Valid)
    (hk : k.form? ≠ some form) {atStart : Bool} {behind : List Token} (earlier : Option Char)
    (rest : Text) :
    form.pattern.replaceFrom form.replacement 0 earlier (k.piece tags atStart behind ++ rest) =
      k.piece tags atStart behind ++ form.pattern.replaceFrom form.replacement 0
        (Text.lastOr earlier (k.piece tags atStart behind)) rest := by
  obtain ⟨segments, hs⟩ := form.exists_segments
  exact Pattern.replaceFrom_passes hs _ (passes_other ready valid hk) earlier rest

theorem Form.mark_ne_nil (form : Form) : form.mark ≠ [] := by
  cases form with
  | echo escape => cases escape <;> exact List.cons_ne_nil _ _
  | _ => exact List.cons_ne_nil _ _

theorem replaceFrom_done (form : Form) (earlier : Option Char) :
    form.pattern.replaceFrom form.replacement 0 earlier [] = [] := by
  obtain ⟨segments, hs⟩ := form.exists_segments
  exact Pattern.replaceFrom_nil hs form.mark_ne_nil _ earlier

/-- The rule of an echo or a call turns its directives into tags. -/
theorem replaceFrom_written (flat : ∀ b, form ≠ .block b) (new : form ∉ tags)
    (ready : form.Ready tags) {ks : List Token} (valid : ∀ k ∈ ks, k.Valid) (spaced : Spaced ks)
    (atStart : Bool) (earlier : Option Char) :
    form.pattern.replaceFrom form.replacement 0 earlier (written tags atStart ks) =
      written (form :: tags) atStart ks := by
  induction ks generalizing atStart earlier with
  | nil => exact replaceFrom_done form earlier
  | cons k ks ih =>
    have validk := valid k List.mem_cons_self
    have rest := fun a e => ih (fun j hj => valid j (List.mem_cons_of_mem _ hj)) spaced.tail a e
    by_cases hk : k.form? = some form
    · have hdone : k.piece (form :: tags) atStart ks = Artifact.tagged k.statement :=
        piece_done hk List.mem_cons_self
      rw [written, written, piece_new hk new, hdone]
      cases k with
      | text t => simp [Token.form?] at hk
      | start opening => exact absurd (Option.some.inj hk).symm (flat _)
      | stop block => exact absurd (Option.some.inj hk).symm (flat _)
      | echo before expr after escape =>
        obtain rfl := Option.some.inj hk
        obtain ⟨hb, ha, he⟩ := validk
        rw [Pattern.replaceFrom_takes _ _ (echo_takes hb ha he.line _) (solid_source rfl).nonempty,
          expand_echo escape before expr after, rest]
        rfl
      | call operation args =>
        obtain rfl := Option.some.inj hk
        obtain ⟨blanks, hblanks, hsplit, hfirst⟩ := written_eq_blanks_append tags spaced.tail
        have before : (Token.call operation args).takesBlanks tags = false := by
          simpa [Token.takesBlanks] using new
        have after : (Token.call operation args).takesBlanks (.call operation :: tags) = true := by
          simp [Token.takesBlanks]
        rw [before, after, hsplit, ← List.append_assoc]
        rw [Pattern.replaceFrom_takes _ _ (call_takes validk.2.code hblanks hfirst) ?_,
          expand_call, rest]
        simp [Token.source, calling]
    · rw [written, written, replaceFrom_other ready validk hk, rest, takesBlanks_cons_form hk,
        piece_cons_form hk atStart (nextTakes_cons_form flat tags ks)]

theorem nextTakes_of_paired {block : Block} {ks : List Token} (paired : Paired block ks) :
    nextTakes (.block block :: tags) ks = nextTakes tags ks := by
  cases paired with
  | nil => rfl
  | other different _ => exact takesBefore_cons_form different
  | pair _ _ _ => rfl

/-- The rule of a block turns its starts and ends into tags. -/
theorem replaceFrom_written_block {block : Block} (new : .block block ∉ tags) {ks : List Token}
    (paired : Paired block ks) (valid : ∀ k ∈ ks, k.Valid) (spaced : Spaced ks) (atStart : Bool)
    (earlier : Option Char) :
    (Form.block block).pattern.replaceFrom (Form.block block).replacement 0 earlier
        (written tags atStart ks) = written (.block block :: tags) atStart ks := by
  induction paired generalizing atStart earlier with
  | nil => exact replaceFrom_done _ earlier
  | @other k ks different rest ih =>
    have validk := valid k List.mem_cons_self
    have ready : (Form.block block).Ready tags := trivial
    rw [written, written, replaceFrom_other ready validk different,
      ih (fun j hj => valid j (List.mem_cons_of_mem _ hj)) spaced.tail,
      takesBlanks_cons_form different,
      piece_cons_form different atStart (nextTakes_of_paired rest)]
  | @pair opening body ks kind different rest ih =>
    subst kind
    have validBody : ∀ k ∈ body, k.Valid := fun k hk => valid k (by simp [hk])
    have spacedBody : Spaced body := spaced.tail.of_append_left
    have hpasses : Passes ('@' :: opening.block.endWord) (written tags false body) :=
      passes_written (fun k hk _ _ => passes_end (validBody k hk) (different k hk)) false
    have inert : IsInert opening.head := Opening.Valid.inert (valid _ List.mem_cons_self)
    have start : (Token.start opening).form? = some (.block opening.block) := rfl
    have left : written tags atStart (.start opening :: (body ++ .stop opening.block :: ks)) =
        (Token.start opening).source ++ written tags false body ++
          (Token.stop opening.block).source ++ written tags false ks := by
      rw [written, piece_new start new]
      show (Token.start opening).source ++
        written tags false (body ++ .stop opening.block :: ks) = _
      rw [written_append_stop new]
      simp [Token.source]
    have right : written (.block opening.block :: tags) atStart
        (.start opening :: (body ++ .stop opening.block :: ks)) =
        Artifact.tagged (Token.start opening).statement ++ (written tags false body).trimEnd ++
          Artifact.tagged (Token.stop opening.block).statement ++
            written (.block opening.block :: tags) false ks := by
      rw [written, piece_done start List.mem_cons_self]
      show _ ++ written (.block opening.block :: tags) false (body ++ .stop opening.block :: ks) = _
      rw [written_cons_append_stop false ks spacedBody different]
      simp only [List.append_assoc]
    rw [left, right, Pattern.replaceFrom_takes _ _ (block_takes inert.isCode hpasses _) ?_,
      expand_block, ih (fun j hj => valid j (by simp [hj])) spaced.tail.of_append_right.tail]
    simp [Token.source, calling]

end Rules

/-! ## All rules -/

def Form.all : List Form :=
  [.call .hook, .call .importView, .call .includeView, .call .content, .call .startSection,
    .block .region, .call .extend, .block .loop, .echo false, .echo true]

theorem Form.mem_all (form : Form) : form ∈ Form.all := by
  cases form with
  | echo escape => cases escape <;> decide
  | call operation => cases operation <;> decide
  | block b => cases b <;> decide

theorem Form.highest_le (form : Form) : form.replacement.highest ≤ form.pattern.captureCount := by
  cases form with
  | echo escape => cases escape <;> decide
  | call operation => cases operation <;> decide
  | block b => cases b <;> decide

/-- The patterns of the built-in rules are told apart, so that the table holds all of them. -/
theorem builtin_rules : RuleTable.builtin.rules = RuleTable.builtinRules := rfl

theorem compileWith_cons {rule : Rule} {p : Pattern} {r : Replacement}
    (hp : Pattern.parse rule.pattern = .ok p) (hr : Replacement.parse rule.replacement = r)
    (hc : r.highest ≤ p.captureCount) (rules : List Rule) (source : Text) :
    RuleTable.compileWith (rule :: rules) source =
      RuleTable.compileWith rules (p.replaceAll r source) := by
  subst hr
  simp [RuleTable.compileWith, Rule.compile, hp, hc, Rule.Compiled.apply]

/-- A rule leaves a text alone that its directive starts nowhere in. -/
theorem compileWith_absent (form : Form) {rule : Rule}
    (hp : Pattern.parse rule.pattern = .ok form.pattern)
    (hr : Replacement.parse rule.replacement = form.replacement) {text : Text}
    (h : ¬ form.mark <:+: text) (rules : List Rule) :
    RuleTable.compileWith (rule :: rules) text = RuleTable.compileWith rules text := by
  obtain ⟨segments, hs⟩ := form.exists_segments
  rw [compileWith_cons hp hr form.highest_le, Pattern.replaceAll_absent hs form.mark_ne_nil _ h]

/-- Without a sign only the rules for echoes and the one for blank lines find anything. -/
theorem compileWith_noSign {text : Text} (h : '@' ∉ text) :
    RuleTable.compileWith (RuleTable.builtinRules.drop 2) text =
      RuleTable.compileWith (RuleTable.builtinRules.drop 11) text := by
  have absent {mark : Text} : ¬ '@' :: mark <:+: text := fun hm => h (hm.mem List.mem_cons_self)
  have raw (r : Replacement) : rawPattern.replaceAll r text = text :=
    Pattern.replaceAll_absent (p := rawPattern) rfl (List.cons_ne_nil _ _) r absent
  refine (compileWith_absent (.block .loop) (by decide +kernel) (by decide +kernel)
    absent _).trans ?_
  refine (compileWith_cons (p := rawPattern) (by decide +kernel) rfl (by decide +kernel)
    _ _).trans ?_
  rw [raw]
  refine (compileWith_absent (.call .extend) (by decide +kernel) (by decide +kernel)
    absent _).trans ?_
  refine (compileWith_absent (.block .region) (by decide +kernel) (by decide +kernel)
    absent _).trans ?_
  refine (compileWith_absent (.call .startSection) (by decide +kernel) (by decide +kernel)
    absent _).trans ?_
  refine (compileWith_absent (.call .content) (by decide +kernel) (by decide +kernel)
    absent _).trans ?_
  refine (compileWith_absent (.call .includeView) (by decide +kernel) (by decide +kernel)
    absent _).trans ?_
  refine (compileWith_absent (.call .importView) (by decide +kernel) (by decide +kernel)
    absent _).trans ?_
  exact compileWith_absent (.call .hook) (by decide +kernel) (by decide +kernel) absent _

/-- The last rule takes blank lines out. -/
theorem compileWith_blankLines (text : Text) :
    RuleTable.compileWith (RuleTable.builtinRules.drop 11) text =
      .ok (dropBlankLines none text) :=
  compileWith_cons (p := Pattern.blankLine) (r := []) (by decide +kernel) (by decide +kernel)
    (by decide +kernel) [] text

section Compile

variable {items : List Item} (h : AllValid [] items)

include h

theorem replaceAll_written {form : Form} {tags : List Form} (new : form ∉ tags)
    (ready : form.Ready tags) :
    form.pattern.replaceAll form.replacement (written tags false (tokensAll items)) =
      written (form :: tags) false (tokensAll items) := by
  have valid := tokensAll_valid h
  have spaced := tokensAll_spaced h
  cases form with
  | echo escape => exact replaceFrom_written (by simp) new ready valid spaced false none
  | call operation => exact replaceFrom_written (by simp) new ready valid spaced false none
  | block b => exact replaceFrom_written_block new (tokensAll_paired b h) valid spaced false none

theorem compileWith_form (form : Form) {rule : Rule} {tags : List Form}
    (hp : Pattern.parse rule.pattern = .ok form.pattern)
    (hr : Replacement.parse rule.replacement = form.replacement) (new : form ∉ tags)
    (ready : form.Ready tags) (rules : List Rule) :
    RuleTable.compileWith (rule :: rules) (written tags false (tokensAll items)) =
      RuleTable.compileWith rules (written (form :: tags) false (tokensAll items)) := by
  rw [compileWith_cons hp hr form.highest_le, replaceAll_written h new ready]

/-- The rule for plain code finds none. -/
theorem compileWith_raw {rule : Rule} (hp : Pattern.parse rule.pattern = .ok rawPattern)
    (hc : (Replacement.parse rule.replacement).highest ≤ 1) (tags : List Form)
    (rules : List Rule) :
    RuleTable.compileWith (rule :: rules) (written tags false (tokensAll items)) =
      RuleTable.compileWith rules (written tags false (tokensAll items)) := by
  have passes : Passes ('@' :: Word.raw.text) (written tags false (tokensAll items)) :=
    passes_written (fun k hk _ _ => passes_sign .raw (tokensAll_valid h k hk)
      fun _ => word?_ne_raw k) false
  rw [compileWith_cons hp rfl hc]
  rw [Pattern.replaceAll_absent (p := rawPattern) rfl (List.cons_ne_nil _ _) _
    (passes.absent (List.cons_ne_nil _ _))]

theorem notMem_written {c : Char} (hc : c = '\r' ∨ c = '\n') :
    c ∉ written Form.all false (tokensAll items) := by
  have valid := tokensAll_valid h
  generalize tokensAll items = ks at valid
  generalize false = atStart
  induction ks generalizing atStart with
  | nil => simp [written]
  | cons k ks ih =>
    have validk := valid k List.mem_cons_self
    have rest := fun a => ih (fun j hj => valid j (List.mem_cons_of_mem _ hj)) a
    rw [written, List.mem_append, not_or]
    refine ⟨?_, rest _⟩
    cases hk : k.form? with
    | some form =>
      rw [piece_done hk form.mem_all]
      exact notMem_tagged validk (Or.inr hc)
    | none =>
      have ht : k.isText = true := by cases k <;> simp_all [Token.form?, Token.isText]
      obtain ⟨t, rfl⟩ := Token.eq_text ht
      intro hm
      refine validk.plain c (cut_subset hm) ?_
      rcases hc with rfl | rfl <;> decide

/-- Texts and tags of a template stand on one line, on which nothing is taken out. -/
theorem dropBlankLines_written :
    dropBlankLines none (written Form.all false (tokensAll items)) =
      written Form.all false (tokensAll items) := by
  have noReturn := notMem_written h (Or.inl rfl)
  have noFeed := notMem_written h (Or.inr rfl)
  refine (dropBlankLines_last (Or.inl rfl) noFeed).trans (Text.keptLine_eq_self fun c hc => ?_)
  have inside := (List.takeWhile_prefix _).mem hc
  rw [Text.isBreak, Bool.or_eq_false_iff, beq_eq_false_iff_ne, beq_eq_false_iff_ne]
  exact ⟨fun same => noReturn (same ▸ inside), fun same => noFeed (same ▸ inside)⟩

/-- The built-in rules turn a valid template into texts and tags. -/
theorem compile_sourceAll :
    RuleTable.builtin.compile (sourceAll items) =
      .ok (written Form.all false (tokensAll items)) := by
  rw [RuleTable.compile, builtin_rules, ← written_source]
  refine (compileWith_form h (.echo true) (by decide +kernel) (by decide +kernel) (by decide)
    trivial _).trans ?_
  refine (compileWith_form h (.echo false) (by decide +kernel) (by decide +kernel) (by decide)
    (by simp [Form.Ready]) _).trans ?_
  refine (compileWith_form h (.block .loop) (by decide +kernel) (by decide +kernel) (by decide)
    trivial _).trans ?_
  refine (compileWith_raw h (by decide +kernel) (by decide +kernel) _ _).trans ?_
  refine (compileWith_form h (.call .extend) (by decide +kernel) (by decide +kernel) (by decide)
    trivial _).trans ?_
  refine (compileWith_form h (.block .region) (by decide +kernel) (by decide +kernel) (by decide)
    trivial _).trans ?_
  refine (compileWith_form h (.call .startSection) (by decide +kernel) (by decide +kernel)
    (by decide) (by simp [Form.Ready]) _).trans ?_
  refine (compileWith_form h (.call .content) (by decide +kernel) (by decide +kernel) (by decide)
    trivial _).trans ?_
  refine (compileWith_form h (.call .includeView) (by decide +kernel) (by decide +kernel)
    (by decide) trivial _).trans ?_
  refine (compileWith_form h (.call .importView) (by decide +kernel) (by decide +kernel)
    (by decide) trivial _).trans ?_
  refine (compileWith_form h (.call .hook) (by decide +kernel) (by decide +kernel) (by decide)
    trivial _).trans ?_
  exact (compileWith_blankLines _).trans (congrArg Except.ok (dropBlankLines_written h))

end Compile

end Stencil.Template
