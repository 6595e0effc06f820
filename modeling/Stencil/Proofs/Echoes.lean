import Stencil.Proofs.PrintedProgram

/-!
# What becomes of an echo

An echo between its marks is compiled to a tag, and the reader finds out from the text of that tag
whether the markup is escaped. Proved here:

* `compile_echo`: whatever stands between the marks on one line goes into one tag;
* `parse_echo`: what that tag is read as (`echoProgram`). An escaped echo is raw when a parenthesis
  in it closes nothing, a raw echo is escaped when it reads as a call of `escape`, and a raw echo of
  nothing is no statement;
* `echo_kept_iff`: so an echo keeps its expression and its escaping in all other cases and in no
  more (`KeepsEscaping`).
-/

namespace Stencil.Template

open Artifact

/-! ## The rules -/

/-- The template source of an echo, as in `{{ name }}` and `{! name !}`. -/
def echoSource (escape : Bool) (before expr after : Text) : Text :=
  echoOpen escape ++ before ++ expr ++ after ++ echoClose escape

/-- The rule of an echo takes all of it. -/
theorem replaceAll_echo {before expr after : Text} (hb : IsBlanks before) (ha : IsBlanks after)
    (he : IsLine expr) (escape : Bool) :
    (Form.echo escape).pattern.replaceAll (Form.echo escape).replacement
        (echoSource escape before expr after) =
      tagged (Token.echo before expr after escape).statement := by
  have takes : (Form.echo escape).pattern.Takes (echoSource escape before expr after) [] [expr] :=
    echo_takes hb ha he []
  have nonempty : echoSource escape before expr after ≠ [] := by
    cases escape <;> exact List.cons_ne_nil _ _
  have := Pattern.replaceFrom_takes _ (Form.echo escape).replacement takes nonempty none
  rw [List.append_nil, replaceFrom_done, List.append_nil] at this
  rw [← expand_echo escape before expr after]
  exact this

/-- The rules behind those for echoes leave a line alone that no directive stands on. -/
theorem compileWith_signs {c : Char} {text : Text} (hc : Text.isBlank c = false)
    (hs : '@' ∉ c :: text) (hn : '\n' ∉ c :: text) :
    RuleTable.compileWith (RuleTable.builtinRules.drop 2) (c :: text) = .ok (c :: text) := by
  have first : (c :: text).takeWhile Text.isBlank = [] := by simp [hc]
  have kept : Text.keptLine (c :: text) = c :: text := Text.keptLine_eq_self (by simp [first])
  rw [compileWith_noSign hs, compileWith_blankLines, dropBlankLines_last (Or.inl rfl) hn, kept]

theorem notMem_statement_echo {before expr after : Text} (escape : Bool) {c : Char}
    (hc : c ∈ ['@', '{', '\n']) (he : c ∉ expr) :
    c ∉ tagged (Token.echo before expr after escape).statement := by
  have plain : ∀ c ∈ ['@', '{', '\n'], c ∉ "<?vm echo escape(".toList ∧
      c ∉ "<?vm echo ".toList ∧ c ∉ ") ?>".toList ∧ c ∉ " ?>".toList := by decide
  obtain ⟨escaped, raw, closed, last⟩ := plain c hc
  have escapedSource : tagged (Token.echo before expr after true).statement =
      "<?vm echo escape(".toList ++ (expr ++ ") ?>".toList) := by
    delta tagged Token.statement
    simp only [List.append_assoc]
    rfl
  have rawSource : tagged (Token.echo before expr after false).statement =
      "<?vm echo ".toList ++ (expr ++ " ?>".toList) := by
    delta tagged Token.statement
    simp only [List.append_assoc]
    rfl
  cases escape with
  | true =>
    rw [escapedSource]
    exact List.not_mem_append escaped (List.not_mem_append he closed)
  | false =>
    rw [rawSource]
    exact List.not_mem_append raw (List.not_mem_append he last)

/-- Whatever an echo shows on one line goes into one tag. -/
theorem compile_echo {before expr after : Text} (hb : IsBlanks before) (ha : IsBlanks after)
    (he : IsLine expr) (escape : Bool) :
    RuleTable.builtin.compile (echoSource escape before expr after) =
      .ok (tagged (Token.echo before expr after escape).statement) := by
  have signs : RuleTable.compileWith (RuleTable.builtinRules.drop 2)
      (tagged (Token.echo before expr after escape).statement) =
        .ok (tagged (Token.echo before expr after escape).statement) :=
    compileWith_signs (c := '<') (by decide)
      (notMem_statement_echo escape (by decide) he.noSign)
      (notMem_statement_echo escape (by decide) he.noFeed)
  rw [RuleTable.compile, builtin_rules]
  cases escape with
  | true =>
    refine (compileWith_cons (p := (Form.echo true).pattern) (by decide +kernel)
      (r := (Form.echo true).replacement) (by decide +kernel) (Form.highest_le _) _ _).trans ?_
    rw [replaceAll_echo hb ha he]
    have noEcho : Passes (Form.echo false).mark
        (tagged (Token.echo before expr after true).statement) :=
      .of_notMem (notMem_statement_echo true (by decide) he.noOpener)
    refine (compileWith_absent (.echo false) (by decide +kernel) (by decide +kernel)
      (noEcho.absent (Form.mark_ne_nil _)) _).trans ?_
    exact signs
  | false =>
    have noEcho : Passes (Form.echo true).mark (echoSource false before expr after) := by
      have blanks {text : Text} (h : IsBlanks text) : '{' ∉ text := by
        intro hm
        have := (h _ hm).1
        simp [Text.isBlank] at this
      have behind : '{' ∉ before ++ expr ++ after ++ ['!', '}'] := by
        simp [blanks hb, blanks ha, he.noOpener]
      have passes : Passes ['{', '{'] ('{' :: ['!'] ++ (before ++ expr ++ after ++ ['!', '}'])) :=
        .of_other (by decide) behind (by decide) (by decide)
      simpa [echoSource, echoOpen, echoClose, Form.mark] using passes
    refine (compileWith_absent (.echo true) (by decide +kernel) (by decide +kernel)
      (noEcho.absent (Form.mark_ne_nil _)) _).trans ?_
    refine (compileWith_cons (p := (Form.echo false).pattern) (by decide +kernel)
      (r := (Form.echo false).replacement) (by decide +kernel) (Form.highest_le _) _ _).trans ?_
    rw [replaceAll_echo hb ha he]
    exact signs

/-! ## The reader -/

/-- A tag on its own is read for itself. -/
theorem parse_tagged {body : Text} (closed : (SourcePart.tag body).Closed) :
    parse (tagged body) =
      (Stack.initial.step (.tag (' ' :: body ++ [' ']) 1)).bind Stack.finish := by
  have chunks : split (tagged body) = .ok [.tag (' ' :: body ++ [' ']) 1] := by
    have alternating : Alternating [SourcePart.tag body] := List.isChain_singleton _
    have cut := splitText_sources (List.forall_mem_singleton.mpr closed) alternating 1
      (Or.inl (Eq.refl []))
    rwa [source_tag] at cut
  rw [parse, chunks]
  simp only [Stack.run]
  cases Stack.initial.step (.tag (' ' :: body ++ [' ']) 1) with
  | ok stack => rfl
  | error malformed => rfl

def echoProgram : Bool → Text → Except Malformed Program
  | true, expr =>
    .ok [if (Text.splitTopLevel [')'] expr).length = 1 then .echo expr true
      else .echo (callSource "escape".toList expr) false]
  | false, expr =>
    if expr = [] then .error ⟨1, .unrecognized "echo".toList⟩ else .ok [echoNode expr]

theorem parse_echo {before expr after : Text} (he : IsLine expr) (escape : Bool) :
    parse (tagged (Token.echo before expr after escape).statement) = echoProgram escape expr := by
  have tag : InTag expr := ⟨he.trimmed, he.noTagEnd⟩
  cases escape with
  | true =>
    have statement : (Token.echo before expr after true).statement =
        "echo ".toList ++ callSource "escape".toList expr := rfl
    have closed : SourcePart.Closed (.tag ("echo ".toList ++ callSource "escape".toList expr)) :=
      closed_callSource "echo escape".toList (by decide) he.noTagEnd
    rw [statement, parse_tagged closed, Stack.step, read_escaped he.trimmed]
    rfl
  | false =>
    have closed : SourcePart.Closed (.tag ("echo ".toList ++ expr)) := closed_word (by decide) tag
    refine (parse_tagged closed).trans ?_
    by_cases hn : expr = []
    · subst hn
      rfl
    · obtain ⟨first, last⟩ := Text.ends_of_trim_eq he.trimmed
      rw [Stack.step, read_shown first last hn, echoProgram, if_neg hn]
      rfl

/-! ## Echoes that keep their escaping -/

/-- Nothing in the expression makes the reader take the echo for another one. -/
def KeepsEscaping : Bool → Text → Prop
  | true, expr => (Text.splitTopLevel [')'] expr).length = 1
  | false, expr => expr ≠ [] ∧ callArguments? "escape".toList expr = none

theorem echoNode_eq_iff (expr : Text) :
    echoNode expr = .echo expr false ↔ callArguments? "escape".toList expr = none := by
  delta echoNode
  cases callArguments? "escape".toList expr with
  | none => simp
  | some inner => simp

theorem echoProgram_eq_iff (escape : Bool) (expr : Text) :
    echoProgram escape expr = .ok [.echo expr escape] ↔ KeepsEscaping escape expr := by
  cases escape with
  | true =>
    by_cases h : (Text.splitTopLevel [')'] expr).length = 1
    · simp [echoProgram, KeepsEscaping, h]
    · simp [echoProgram, KeepsEscaping, h]
  | false =>
    by_cases hn : expr = []
    · simp [echoProgram, KeepsEscaping, hn]
    · simp [echoProgram, KeepsEscaping, hn, echoNode_eq_iff]

/-- An echo of one line is compiled and read back, and it keeps its expression and its escaping
exactly when nothing in the expression makes the reader take it for another one. -/
theorem echo_kept_iff {before expr after : Text} (hb : IsBlanks before) (ha : IsBlanks after)
    (he : IsLine expr) (escape : Bool) :
    ∃ artifact, RuleTable.builtin.compile (echoSource escape before expr after) = .ok artifact ∧
      parse artifact = echoProgram escape expr ∧
      (parse artifact = .ok [.echo expr escape] ↔ KeepsEscaping escape expr) := by
  refine ⟨_, compile_echo hb ha he escape, parse_echo he escape, ?_⟩
  rw [parse_echo he escape]
  exact echoProgram_eq_iff escape expr

theorem echo_kept_iff_greeting :
    IsBlanks [' '] ∧ IsLine "greet(user['na)me'])".toList ∧
      ∃ artifact,
        RuleTable.builtin.compile (echoSource true [' '] "greet(user['na)me'])".toList [' ']) =
          .ok artifact ∧
        parse artifact = .ok [.echo "greet(user['na)me'])".toList true] := by
  have blanks : IsBlanks [' '] := by decide
  have line : IsLine "greet(user['na)me'])".toList := by decide +kernel
  have keeps : KeepsEscaping true "greet(user['na)me'])".toList := by
    show (Text.splitTopLevel [')'] "greet(user['na)me'])".toList).length = 1
    decide +kernel
  obtain ⟨artifact, compiled, -, kept⟩ := echo_kept_iff blanks blanks line true
  exact ⟨blanks, line, artifact, compiled, kept.mpr keeps⟩

theorem not_exists_kept {before expr after : Text} (hb : IsBlanks before) (ha : IsBlanks after)
    (he : IsLine expr) {escape : Bool} (h : ¬ KeepsEscaping escape expr) :
    ¬ ∃ artifact, RuleTable.builtin.compile (echoSource escape before expr after) = .ok artifact ∧
      parse artifact = .ok [.echo expr escape] := by
  rintro ⟨artifact, compiled, parsed⟩
  rw [compile_echo hb ha he] at compiled
  obtain rfl := Except.ok.inj compiled
  rw [parse_echo he] at parsed
  exact h ((echoProgram_eq_iff escape expr).mp parsed)

/-- An escaped echo that is read as a raw one, a raw one that is read as an escaped one, and a raw
one that is not read at all. -/
theorem echo_not_kept :
    (IsLine "x) if false else (y".toList ∧
      ¬ ∃ artifact,
        RuleTable.builtin.compile (echoSource true [' '] "x) if false else (y".toList [' ']) =
          .ok artifact ∧
        parse artifact = .ok [.echo "x) if false else (y".toList true]) ∧
    (IsLine "escape(x)".toList ∧
      ¬ ∃ artifact,
        RuleTable.builtin.compile (echoSource false [' '] "escape(x)".toList [' ']) =
          .ok artifact ∧
        parse artifact = .ok [.echo "escape(x)".toList false]) ∧
    (IsLine [] ∧
      ¬ ∃ artifact,
        RuleTable.builtin.compile (echoSource false [' '] [] []) = .ok artifact ∧
        parse artifact = .ok [.echo [] false]) := by
  have blanks : IsBlanks [' '] := by decide
  have closes : IsLine "x) if false else (y".toList := by decide +kernel
  have call : IsLine "escape(x)".toList := by decide +kernel
  have nothing : IsLine [] := by decide
  refine ⟨⟨closes, not_exists_kept blanks blanks closes ?_⟩,
    ⟨call, not_exists_kept blanks blanks call ?_⟩,
    nothing, not_exists_kept blanks (by decide) nothing fun h => h.1 rfl⟩
  · show ¬ (Text.splitTopLevel [')'] "x) if false else (y".toList).length = 1
    decide +kernel
  · rintro ⟨-, h⟩
    exact absurd h (by decide +kernel)

end Stencil.Template
