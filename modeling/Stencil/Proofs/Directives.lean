import Stencil.Proofs.Stages
import Stencil.Rule

/-!
# The directives and their patterns

Each built-in rule but the one for plain code and the one for blank lines belongs to one form of
directives. Proved here:

* `echo_takes`, `call_takes`, `block_takes`: where a directive stands, the pattern of its form
  matches it from its first character to its last, with the blanks that it takes, and captures what
  is to be kept;
* `expand_echo`, `expand_call`, `expand_block`: with these captures the replacement is the tag of
  the directive.
-/

namespace Stencil.Template

open Artifact (Call)

/-! ## Forms and their rules -/

def chars (text : Text) : Replacement := text.map Piece.char

def tagAround (before : Text) (index : Nat) (after : Text) : Replacement :=
  chars ("<?vm ".toList ++ before) ++ .capture index :: chars (after ++ " ?>".toList)

namespace Form

def segments : Form → List Segment
  | .echo escape =>
    [.literal (echoOpen escape), .blanks, .capture .short, .blanks, .literal (echoClose escape)]
  | .call operation =>
    [.literal ('@' :: directive operation), .blanks, .literal ['('], .capture .balanced,
      .literal [')'], .blanks]
  | .block b =>
    [.literal ('@' :: b.word), .blanks, .literal ['('], .capture .balanced, .literal [')'],
      .capture .shortAcrossLines, .blanks, .literal ('@' :: b.endWord)]

def pattern (form : Form) : Pattern := ⟨form.segments⟩

/-- What takes the place of a directive of a form. -/
def replacement : Form → Replacement
  | .echo true => tagAround "echo escape(".toList 1 ")".toList
  | .echo false => tagAround "echo ".toList 1 []
  | .call operation => tagAround (operation.name ++ "(".toList) 1 ")".toList
  | .block .loop =>
    tagAround "foreach (".toList 1 "):".toList ++
      .capture 2 :: chars (Artifact.tagged "endforeach".toList)
  | .block .region =>
    tagAround "layout.start_section(".toList 1 ")".toList ++
      .capture 2 :: chars (Artifact.tagged "layout.stop_section()".toList)

end Form

theorem expand_append (r s : Replacement) (whole : Text) (captures : List Text) :
    Replacement.expand (r ++ s) whole captures =
      r.expand whole captures ++ s.expand whole captures := by
  simp [Replacement.expand]

theorem expand_chars (text whole : Text) (captures : List Text) :
    Replacement.expand (chars text) whole captures = text := by
  induction text with
  | nil => rfl
  | cons c text ih =>
    show c :: Replacement.expand (chars text) whole captures = c :: text
    rw [ih]

theorem expand_capture (index : Nat) (r : Replacement) (whole : Text) (captures : List Text) :
    Replacement.expand (.capture (index + 1) :: r) whole captures =
      captures[index]?.getD [] ++ r.expand whole captures := by
  simp [Replacement.expand, Replacement.expandPiece]

theorem expand_tagAround (before : Text) (index : Nat) (after whole : Text) (captures : List Text) :
    (tagAround before (index + 1) after).expand whole captures =
      Artifact.tagged (before ++ captures[index]?.getD [] ++ after) := by
  show _ = "<?vm ".toList ++ (before ++ captures[index]?.getD [] ++ after) ++ " ?>".toList
  rw [tagAround, expand_append, expand_chars, expand_capture, expand_chars]
  simp only [List.append_assoc]

theorem expand_echo (escape : Bool) (before expr after whole : Text) :
    (Form.echo escape).replacement.expand whole [expr] =
      Artifact.tagged (Token.echo before expr after escape).statement := by
  cases escape with
  | true => exact expand_tagAround _ 0 _ whole [expr]
  | false =>
    refine (expand_tagAround _ 0 _ whole [expr]).trans ?_
    rw [List.append_nil]
    rfl

theorem expand_call (operation : Call) (args whole : Text) :
    (Form.call operation).replacement.expand whole [args] =
      Artifact.tagged (Token.call operation args).statement :=
  expand_tagAround _ 0 _ whole [args]

theorem expand_block (opening : Opening) (body whole : Text) :
    (Form.block opening.block).replacement.expand whole [opening.head, body] =
      Artifact.tagged (Token.start opening).statement ++ body ++
        Artifact.tagged (Token.stop opening.block).statement := by
  have both (before after last : Text) :
      Replacement.expand (tagAround before 1 after ++ .capture 2 :: chars last) whole
        [opening.head, body] =
          Artifact.tagged (before ++ opening.head ++ after) ++ body ++ last := by
    rw [expand_append, expand_tagAround, expand_capture, expand_chars]
    exact (List.append_assoc _ _ _).symm
  cases opening with
  | loop iterable binding => exact both _ _ _
  | region name => exact both _ _ _


/-! ## Matches -/

theorem IsBlanks.allBlank {blanks : Text} (h : IsBlanks blanks) : Text.AllBlank blanks :=
  fun c hc => (h c hc).1

theorem IsCode.admits {code : Text} (h : IsCode code) (earlier : Option Char) :
    (Segment.capture .balanced).Admits earlier code :=
  ⟨h.noFeed, h.closed, h.noStray⟩

theorem echoClose_eq (escape : Bool) :
    ∃ c, echoClose escape = [c, '}'] ∧ Text.isBlank c = false := by
  cases escape
  · exact ⟨'!', rfl, by decide⟩
  · exact ⟨'}', rfl, by decide⟩

/-- Source on one line that can stand between the marks of an echo, whatever it means: no directive
starts in it, no echo ends in it, and no tag does. -/
structure IsLine (expr : Text) : Prop where
  trimmed : expr.trim = expr
  noFeed : '\n' ∉ expr
  noSign : '@' ∉ expr
  noOpener : '{' ∉ expr
  noCloser : '}' ∉ expr
  noTagEnd : ¬ ['?', '>'] <:+: expr

instance (expr : Text) : Decidable (IsLine expr) :=
  decidable_of_iff (expr.trim = expr ∧ '\n' ∉ expr ∧ '@' ∉ expr ∧ '{' ∉ expr ∧ '}' ∉ expr ∧
      ¬ ['?', '>'] <:+: expr)
    ⟨fun ⟨a, b, c, d, e, f⟩ => ⟨a, b, c, d, e, f⟩, fun ⟨a, b, c, d, e, f⟩ => ⟨a, b, c, d, e, f⟩⟩

theorem IsExpression.line {escape : Bool} {expr : Text} (h : IsExpression escape expr) :
    IsLine expr :=
  ⟨h.trimmed, h.code.noFeed, h.code.noSign, h.noOpener, h.noCloser, h.code.noTagEnd⟩

/-- The expression of an echo is the shortest text with blanks and the closing mark behind it. -/
theorem IsLine.length_le {escape : Bool} {expr after rest other behind : Text}
    (he : IsLine expr) (ha : IsBlanks after)
    (h : expr ++ (after ++ (echoClose escape ++ rest)) = other ++ behind)
    (goesOn : ∃ blank stuff, Text.AllBlank blank ∧ behind = blank ++ (echoClose escape ++ stuff)) :
    expr.length ≤ other.length := by
  obtain ⟨mark, hclose, -⟩ := echoClose_eq escape
  obtain ⟨blank, stuff, hblank, hbehind⟩ := goesOn
  refine length_le_of_not_shorter h fun u hu hb => ?_
  by_contra hne
  -- The mark starts inside the expression, since the last character of that is no blank.
  have hlast := (Text.ends_of_trim_eq he.trimmed).2
  obtain ⟨v, hv, rfl, hm⟩ :=
    Text.exists_mark_inside hne (hu ▸ hlast) hblank (hb.symm.trans hbehind)
  rw [hclose] at hm
  have free : '}' ∉ v := by
    intro hmem
    exact he.noCloser (by simp [hu, hmem])
  match v, hv with
  | [c], _ =>
    simp only [List.cons_append, List.nil_append, List.cons.injEq] at hm
    obtain ⟨rfl, hm⟩ := hm
    cases after with
    | nil =>
      simp only [List.nil_append, List.cons.injEq] at hm
      simp [← hm.1] at free
    | cons d after =>
      simp only [List.cons_append, List.cons.injEq] at hm
      have := (ha d List.mem_cons_self).1
      simp [← hm.1, Text.isBlank] at this
  | c :: d :: v, _ =>
    simp only [List.cons_append, List.nil_append, List.cons.injEq] at hm
    simp [← hm.2.1] at free

/-- Which blanks of an echo stand in front of its expression and which behind: all in front when
there is none. -/
theorem IsLine.exists_blanks {before expr after rest : Text} (he : IsLine expr)
    (hb : IsBlanks before) (ha : IsBlanks after)
    (hr : rest.NoBlankFirst) :
    ∃ front behind, Text.AllBlank front ∧ IsBlanks behind ∧
      before ++ (expr ++ after) = front ++ (expr ++ behind) ∧
      Text.NoBlankFirst (expr ++ (behind ++ rest)) := by
  by_cases hn : expr = []
  · refine ⟨before ++ after, [], fun c hc => ?_, by simp [IsBlanks], by simp [hn], by simpa [hn]⟩
    rcases List.mem_append.mp hc with hc | hc
    · exact hb.allBlank c hc
    · exact ha.allBlank c hc
  · have first := (Text.ends_of_trim_eq he.trimmed).1
    exact ⟨before, after, hb.allBlank, ha, rfl, first.append_left hn _⟩

theorem echo_takes {before expr after : Text} {escape : Bool} (hb : IsBlanks before)
    (ha : IsBlanks after) (he : IsLine expr) (rest : Text) :
    (Form.echo escape).pattern.Takes (Token.echo before expr after escape).source rest [expr] := by
  intro earlier
  have closed : Text.NoBlankFirst (echoClose escape ++ rest) := by
    obtain ⟨mark, hclose, hmark⟩ := echoClose_eq escape
    rw [hclose]
    exact Text.noBlankFirst_cons hmark
  obtain ⟨front, behind, hfront, hbehind, hsplit, hfirst⟩ := he.exists_blanks hb ha closed
  have source : (Token.echo before expr after escape).source ++ rest =
      echoOpen escape ++ (front ++ (expr ++ (behind ++ (echoClose escape ++ rest)))) := by
    have := congrArg (· ++ (echoClose escape ++ rest)) hsplit
    simp only [List.append_assoc] at this
    simp only [Token.source, List.append_assoc, this]
  refine ⟨[echoOpen escape, front, expr, behind, echoClose escape], ?_, ?_, rfl⟩
  · rw [source]
    refine matchSlices_literal (matchSlices_blanks hfront hfirst ?_)
    have slot := he.noFeed
    refine matchSlices_cons slot (matchSlices_blanks_literal hbehind.allBlank closed) ?_
    intro other stuff h _ goesOn
    exact he.length_le hbehind h (exists_blanks_of_matchSlices goesOn)
  · have := congrArg (fun middle => echoOpen escape ++ (middle ++ echoClose escape)) hsplit
    simpa [Token.source] using this.symm

/-- A call takes the blanks behind it. -/
theorem call_takes {operation : Call} {args blanks rest : Text} (ha : IsCode args)
    (hb : Text.AllBlank blanks) (hr : rest.NoBlankFirst) :
    (Form.call operation).pattern.Takes ((Token.call operation args).source ++ blanks) rest
      [args] := by
  intro earlier
  refine ⟨['@' :: directive operation, [], ['('], args, [')'], blanks], ?_,
    by simp [Token.source, calling], rfl⟩
  have source : (Token.call operation args).source ++ blanks ++ rest =
      '@' :: directive operation ++ ([] ++ (['('] ++ (args ++ ')' :: (blanks ++ rest)))) := by
    simp [Token.source, calling]
  rw [source]
  refine matchSlices_literal (matchSlices_blanks .nil (Text.noBlankFirst_cons (by decide))
    (matchSlices_literal ?_))
  refine matchSlices_balanced (ha.admits _) (matchSlices_literal ?_)
  exact matchSlices_blanks hb hr rfl

/-- A block is taken as a whole, and the blanks in front of its end are not captured. -/
theorem block_takes {opening : Opening} {body : Text} (ho : IsCode opening.head)
    (hb : Passes ('@' :: opening.block.endWord) body) (rest : Text) :
    (Form.block opening.block).pattern.Takes
      ((Token.start opening).source ++ body ++ (Token.stop opening.block).source) rest
      [opening.head, body.trimEnd] := by
  intro earlier
  obtain ⟨blanks, hblanks, hbody⟩ := Text.exists_blanks_trimEnd body
  have closed : Text.NoBlankFirst ('@' :: opening.block.endWord ++ rest) :=
    Text.noBlankFirst_cons (by decide)
  refine ⟨['@' :: opening.block.word, [], ['('], opening.head, [')'], body.trimEnd, blanks,
    '@' :: opening.block.endWord], ?_, ?_, rfl⟩
  · have source :
        (Token.start opening).source ++ body ++ (Token.stop opening.block).source ++ rest =
        '@' :: opening.block.word ++ ([] ++ (['('] ++ (opening.head ++ ')' ::
          (body.trimEnd ++ (blanks ++ ('@' :: opening.block.endWord ++ rest)))))) := by
      rw [← List.append_assoc body.trimEnd, ← hbody]
      simp [Token.source, calling]
    rw [source]
    refine matchSlices_literal (matchSlices_blanks .nil (Text.noBlankFirst_cons (by decide))
      (matchSlices_literal ?_))
    refine matchSlices_balanced (ho.admits _) (matchSlices_literal ?_)
    refine matchSlices_cons trivial (matchSlices_blanks_literal hblanks closed) ?_
    intro other behind h _ goesOn
    obtain ⟨blank, stuff, hblank, hbehind⟩ := exists_blanks_of_matchSlices goesOn
    refine length_le_of_not_shorter h fun u hu hm => ?_
    by_contra hne
    -- The end mark would start in the body.
    obtain ⟨v, hv, rfl, hmark⟩ := Text.exists_mark_inside hne
      (hu ▸ Text.noBlankLast_trimEnd body) hblank (hm.symm.trans hbehind)
    cases v with
    | nil => exact hv rfl
    | cons c v =>
      refine hb (other ++ blank) c (v ++ blanks) ('@' :: opening.block.endWord ++ rest) ?_
        ⟨stuff, ?_⟩
      · conv_lhs => rw [hbody, hu]
        simp
      · rw [hmark]
        simp
  · have : body.trimEnd ++ (blanks ++ '@' :: opening.block.endWord) =
        body ++ '@' :: opening.block.endWord := by
      rw [← List.append_assoc, ← hbody]
    simp [Token.source, calling, this]

end Stencil.Template
