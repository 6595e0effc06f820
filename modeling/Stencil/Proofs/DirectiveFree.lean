import Stencil.Proofs.Compilation
import Stencil.Proofs.LeftmostMatch

/-!
# Texts without a directive

All built-in rules can be read, so every text compiles, and the rule for blank lines is the last one to
work on it. Proved here:

* `exists_compile`: what comes out is what that rule leaves of some text;
* `matchAt_dropBlankLines`: in what it leaves it finds no match, wherever it looks;
* `compile_directiveFree`: a text without a directive loses its blank lines and nothing else;
* `compile_settles`: so compiling what came out changes nothing, unless there is a directive in it.
-/

namespace Stencil

open Template

/-- No directive starts in the text. -/
structure DirectiveFree (text : Text) : Prop where
  noSign : '@' ∉ text
  noEscapedEcho : ¬ ['{', '{'] <:+: text
  noRawEcho : ¬ ['{', '!'] <:+: text

/-! ## Every text compiles -/

namespace RuleTable

theorem compileWith_append (rules more : List Rule) (source : Text) :
    compileWith (rules ++ more) source = (compileWith rules source).bind (compileWith more) := by
  induction rules generalizing source with
  | nil => rfl
  | cons rule rules ih =>
    rw [List.cons_append, compileWith, compileWith]
    cases rule.compile with
    | error malformed => rfl
    | ok compiled => exact ih _

theorem exists_compileWith {rules : List Rule} (h : ∀ rule ∈ rules, rule.compile.isOk = true)
    (source : Text) : ∃ out, compileWith rules source = .ok out := by
  induction rules generalizing source with
  | nil => exact ⟨source, rfl⟩
  | cons rule rules ih =>
    have readable := h rule List.mem_cons_self
    rw [compileWith]
    cases hr : rule.compile with
    | error malformed => simp [hr, Except.isOk, Except.toBool] at readable
    | ok compiled => exact ih (fun other ho => h other (List.mem_cons_of_mem _ ho)) _

/-- The rule for blank lines has the last word. -/
theorem exists_compile (source : Text) :
    ∃ before, builtin.compile source = .ok (dropBlankLines none before) := by
  have readable : ∀ rule ∈ builtinRules, rule.compile.isOk = true := by decide +kernel
  obtain ⟨before, compiled⟩ := exists_compileWith
    (fun rule hr => readable rule ((List.take_prefix 11 _).mem hr)) source
  refine ⟨before, ?_⟩
  rw [compile, builtin_rules, ← List.take_append_drop 11 builtinRules, compileWith_append, compiled]
  exact compileWith_blankLines before

/-- On a text without a directive only the rule for blank lines finds anything. -/
theorem compile_eq_dropBlankLines {text : Text} (h : DirectiveFree text) :
    builtin.compile text = .ok (dropBlankLines none text) := by
  rw [compile, builtin_rules]
  refine (compileWith_absent (.echo true) (by decide +kernel) (by decide +kernel)
    h.noEscapedEcho _).trans ?_
  refine (compileWith_absent (.echo false) (by decide +kernel) (by decide +kernel)
    h.noRawEcho _).trans ?_
  exact (compileWith_noSign h.noSign).trans (compileWith_blankLines text)

end RuleTable

/-! ## Nothing is left to take out -/

theorem length_replaceFrom_nil_le (p : Pattern) (skip : Nat) (earlier : Option Char) (text : Text) :
    (p.replaceFrom [] skip earlier text).length ≤ text.length := by
  induction text generalizing skip earlier with
  | nil =>
    cases skip with
    | zero =>
      rw [Pattern.replaceFrom]
      split <;> simp [Replacement.expand]
    | succ skip => simp [Pattern.replaceFrom]
  | cons c rest ih =>
    cases skip with
    | succ skip =>
      rw [Pattern.replaceFrom]
      exact (ih skip (some c)).trans (Nat.le_succ _)
    | zero =>
      rw [Pattern.replaceFrom]
      split
      · rw [Replacement.expand, List.flatMap_nil, List.nil_append]
        split
        · exact Nat.succ_le_succ (ih 0 (some c))
        · exact (ih _ (some c)).trans (Nat.le_succ _)
      · exact Nat.succ_le_succ (ih 0 (some c))

/-- A match would have been taken out. -/
theorem find_eq_none_of_replaceFrom {p : Pattern} {earlier : Option Char} {text : Text}
    (nonempty : ∀ earlier text slices, matchSlices p.segments earlier text = some slices →
      slices.flatten ≠ [])
    (same : p.replaceFrom [] 0 earlier text = text) : p.find earlier text = none := by
  induction text generalizing earlier with
  | nil =>
    rw [Pattern.find_nil]
    cases hm : p.matchHere earlier [] with
    | none => rfl
    | some found =>
      obtain ⟨-, cut, slices⟩ := p.eq_append_of_matchHere hm
      exact absurd (List.append_eq_nil_iff.mp cut.symm).1 (nonempty _ _ _ slices)
  | cons c rest ih =>
    rw [Pattern.replaceFrom] at same
    cases hm : matchSlices p.segments earlier (c :: rest) with
    | none =>
      simp only [hm, List.cons.injEq, true_and] at same
      rw [Pattern.find_cons, Pattern.matchHere, hm, ih same]
      rfl
    | some slices =>
      obtain ⟨skip, taken⟩ := Nat.exists_eq_succ_of_ne_zero
        (mt List.eq_nil_of_length_eq_zero (nonempty _ _ _ hm))
      simp only [hm, taken, Replacement.expand, List.flatMap_nil, List.nil_append] at same
      have shorter := length_replaceFrom_nil_le p skip (some c) rest
      rw [same, List.length_cons] at shorter
      omega

theorem ne_nil_of_matchSlices_blankLine {earlier : Option Char} {text : Text} {slices : List Text}
    (h : matchSlices Pattern.blankLine.segments earlier text = some slices) :
    slices.flatten ≠ [] := by
  have first := matchSlices_first Pattern.blankLine.segments earlier text
  rw [h] at first
  obtain ⟨⟨start, _, _, rfl, -, -, run, _, _, rfl, -, -, breaks, _, _, rfl, -, ⟨hne, -⟩, -⟩, -⟩ := first
  simp [hne]

/-- In a text without its blank lines the rule finds none. -/
theorem matchAt_dropBlankLines (text : Text) (place : Nat) :
    Pattern.blankLine.matchAt (dropBlankLines none text) place = none := by
  refine Pattern.blankLine.matchAt_eq_none_of_find ?_ place
  exact find_eq_none_of_replaceFrom (fun _ _ _ => ne_nil_of_matchSlices_blankLine)
    (dropBlankLines_twice text)

/-! ## Lines -/

/-- A carriage return stands only before a line feed. -/
def ReturnsFeed (text : Text) : Prop := ∀ rest, '\r' :: rest <:+ text → rest.head? = some '\n'

/-- Such a carriage return is no part of the blanks in front of something. -/
theorem ReturnsFeed.keptLine_eq_self {before line after : Text}
    (h : ReturnsFeed (before ++ line ++ after)) (hn : '\n' ∉ line)
    (solid : line.all Text.isBlank = true → after = []) : line.keptLine = line := by
  refine Text.keptLine_eq_self fun c hc => ?_
  by_contra hb
  have cut := Text.takeWhile_append_trimStart line
  by_cases hr : c = '\r'
  · subst hr
    obtain ⟨a, b, hab⟩ := List.append_of_mem hc
    have split : line = a ++ '\r' :: (b ++ line.trimStart) := by
      conv_lhs => rw [← cut, hab]
      simp
    have next := h (b ++ line.trimStart ++ after) ⟨before ++ a, by
      conv_rhs => rw [split]
      simp⟩
    cases behind : b ++ line.trimStart with
    | nil =>
      -- Nothing but blanks is on the line then, and nothing comes behind it.
      have blank := (Text.all_isBlank_iff line).mpr (List.append_eq_nil_iff.mp behind).2
      rw [behind, solid blank] at next
      cases next
    | cons d rest =>
      rw [behind] at next split
      obtain rfl : d = '\n' := Option.some.inj next
      exact hn (by rw [split]; simp)
  · have hc' : c = '\n' := by simpa [Text.isBreak, hr] using hb
    exact hn (hc' ▸ (List.takeWhile_prefix _).mem hc)

theorem exists_append_ofLines {line : Text} {lines : List Text} (h : line ∈ lines) (last : Text) :
    ∃ before after, Text.ofLines lines last = before ++ line ++ '\n' :: after := by
  obtain ⟨a, b, rfl⟩ := List.append_of_mem h
  exact ⟨a.flatMap (· ++ ['\n']), Text.ofLines b last, by simp [Text.ofLines]⟩

namespace RuleTable

/-- Compiling a text without a directive takes out the lines of nothing but blanks that a line feed
ends. The other lines stay as they are and in their order, and so does the last piece, which none
ends. -/
theorem compile_directiveFree {source : Text} (free : DirectiveFree source)
    (returns : ReturnsFeed source) :
    ∃ lines last, (∀ line ∈ lines, '\n' ∉ line) ∧ '\n' ∉ last ∧
      source = Text.ofLines lines last ∧
      builtin.compile source =
        .ok (Text.ofLines (lines.filter fun line => !line.all Text.isBlank) last) := by
  obtain ⟨lines, last, hlines, hlast, rfl⟩ := Text.exists_ofLines source
  refine ⟨lines, last, hlines, hlast, rfl, ?_⟩
  have lastKept : last.keptLine = last := by
    have whole : Text.ofLines lines last = lines.flatMap (· ++ ['\n']) ++ last ++ [] := by
      simp [Text.ofLines]
    rw [whole] at returns
    exact returns.keptLine_eq_self hlast fun _ => rfl
  have linesKept : ∀ line ∈ lines.filter fun line => !line.all Text.isBlank,
      line.keptLine = line := by
    intro line hl
    obtain ⟨hl, solid⟩ := List.mem_filter.mp hl
    obtain ⟨before, after, whole⟩ := exists_append_ofLines hl last
    rw [whole] at returns
    exact returns.keptLine_eq_self (hlines line hl) fun blank => by simp [blank] at solid
  rw [compile_eq_dropBlankLines free, dropBlankLines_ofLines (Or.inl rfl) hlines hlast,
    List.map_congr_left linesKept, List.map_id', lastKept]

/-- Blank lines at the start and in between, one of them with a blank of three bytes, an indentation,
and a last piece of blanks. -/
theorem compile_directiveFree_mixed :
    let source : Text := "\u3000\r\n\n  a { b }\r\n\t\n c\n \t".toList
    DirectiveFree source ∧ ReturnsFeed source ∧
      (∃ lines last, (∀ line ∈ lines, '\n' ∉ line) ∧ '\n' ∉ last ∧
        source = Text.ofLines lines last ∧
        builtin.compile source =
          .ok (Text.ofLines (lines.filter fun line => !line.all Text.isBlank) last)) ∧
      builtin.compile source = .ok "  a { b }\r\n c\n \t".toList := by
  intro source
  have free : DirectiveFree source := ⟨by decide, by decide, by decide⟩
  have returns : ReturnsFeed source := by
    have table : ∀ tail ∈ source.tails, tail.head? = some '\r' → tail.tail.head? = some '\n' := by
      decide
    exact fun rest h => table _ ((List.mem_tails _ _).mpr h) rfl
  exact ⟨free, returns, compile_directiveFree free returns, by decide +kernel⟩

/-- Every text compiles, no blank line is left to take out, and compiling the outcome again changes
nothing when there is no directive in it. -/
theorem compile_settles (source : Text) :
    ∃ out, builtin.compile source = .ok out ∧
      (∀ place, Pattern.blankLine.matchAt out place = none) ∧
      (DirectiveFree out → builtin.compile out = .ok out) := by
  obtain ⟨before, compiled⟩ := exists_compile source
  refine ⟨_, compiled, matchAt_dropBlankLines before, fun free => ?_⟩
  rw [compile_eq_dropBlankLines free, dropBlankLines_twice]

/-- A carriage return on its own behind blanks, one on a line with something on it, and one among the
blanks of the last piece. -/
theorem compile_settles_returns :
    let source : Text := "\n\r {{ a }}\n \r\n \r b\r\n \r\t".toList
    let out : Text := " <?vm echo escape(a) ?>\n b\r\n\t".toList
    builtin.compile source = .ok out ∧ DirectiveFree out ∧
      (∀ place, Pattern.blankLine.matchAt out place = none) ∧ builtin.compile out = .ok out := by
  intro source out
  have compiled : builtin.compile source = .ok out := by decide +kernel
  have free : DirectiveFree out := ⟨by decide, by decide, by decide⟩
  obtain ⟨other, compiled', settled, again⟩ := compile_settles source
  obtain rfl : out = other := Except.ok.inj (compiled.symm.trans compiled')
  exact ⟨compiled, free, settled, again free⟩

end RuleTable

end Stencil
