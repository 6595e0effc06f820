import Stencil.Pattern.Replacement

/-!
# Directive rules

A rule turns one written form of a directive into artifact source. Rules are kept in their source
form and are read when they are used, so a malformed rule is reported by the first compilation that
comes to it; `RuleTable.validate` reports it beforehand.

* `RuleTable.register` keeps one rule per pattern, in the order of first registration.
* `RuleTable.compile` applies the rules one after the other to the whole text, each to the output of
  the one before.
* `RuleTable.builtin` holds the directives of the template language.
-/

namespace Stencil

/-- A pattern and what takes the place of its matches, both in source form. -/
structure Rule where
  pattern : Text
  replacement : Text
  deriving DecidableEq, Repr

namespace Rule

inductive Fault
  | pattern (fault : Pattern.Fault)
  /-- The replacement uses capture `index` of a pattern with `count` captures. -/
  | missingCapture (index count : Nat)
  deriving DecidableEq, Repr

def Fault.message : Fault → Text
  | .pattern fault => fault.message
  | .missingCapture index count =>
    "rewrite references `$".toList ++ Text.ofNat index ++
      "` but the pattern only has ".toList ++ Text.ofNat count ++ " capture(s)".toList

/-- A rule that cannot be used, by its pattern, and the reason. -/
structure Malformed where
  pattern : Text
  fault : Fault
  deriving DecidableEq, Repr

/-- A rule that has been read: every capture of the replacement is one of the pattern. -/
structure Compiled where
  pattern : Pattern
  replacement : Replacement
  highest_le : replacement.highest ≤ pattern.captureCount

def Compiled.apply (rule : Compiled) (text : Text) : Text :=
  rule.pattern.replaceAll rule.replacement text

def compile (rule : Rule) : Except Malformed Compiled :=
  match Pattern.parse rule.pattern with
  | .error fault => .error ⟨rule.pattern, .pattern fault⟩
  | .ok pattern =>
    if h : (Replacement.parse rule.replacement).highest ≤ pattern.captureCount then
      .ok ⟨pattern, Replacement.parse rule.replacement, h⟩
    else
      .error ⟨rule.pattern,
        .missingCapture (Replacement.parse rule.replacement).highest pattern.captureCount⟩

end Rule

/-- Rules in the order in which they are applied, one per pattern. -/
structure RuleTable where
  rules : List Rule
  deriving DecidableEq, Repr

namespace RuleTable

def empty : RuleTable := ⟨[]⟩

/-- Replaces the replacement of the rule with the same pattern, or adds the rule at the end. -/
def insertRule (rule : Rule) : List Rule → List Rule
  | [] => [rule]
  | other :: rest =>
    if other.pattern = rule.pattern then rule :: rest else other :: insertRule rule rest

/-- Registers a rule; a pattern that is registered again keeps its place. -/
def register (table : RuleTable) (rule : Rule) : RuleTable := ⟨insertRule rule table.rules⟩

def registerAll (table : RuleTable) (rules : List Rule) : RuleTable := rules.foldl register table

def replacementFor? (table : RuleTable) (pattern : Text) : Option Text :=
  (table.rules.find? (·.pattern = pattern)).map Rule.replacement

/-- The first rule that cannot be used, if there is one. -/
def validate (table : RuleTable) : Except Rule.Malformed Unit :=
  table.rules.forM fun rule => rule.compile.map fun _ => ()

/-- Applies rules one after the other, reading each when it is reached. -/
def compileWith : List Rule → Text → Except Rule.Malformed Text
  | [], source => .ok source
  | rule :: rules, source =>
    match rule.compile with
    | .ok compiled => compileWith rules (compiled.apply source)
    | .error malformed => .error malformed

/-- Turns template source into artifact source. -/
def compile (table : RuleTable) (source : Text) : Except Rule.Malformed Text :=
  compileWith table.rules source

/-! ## The directives of the template language -/

/-- The directives in the order in which they are applied. The rule that drops blank lines is last,
since the others leave blank lines behind. -/
def builtinRules : List Rule :=
  [⟨"{{%s%?%s}}".toList, "<?vm echo escape($1) ?>".toList⟩,
    ⟨"{!%s%?%s!}".toList, "<?vm echo $1 ?>".toList⟩,
    ⟨"@foreach%s(%b)%*%s@endforeach".toList,
      "<?vm foreach ($1): ?>$2<?vm endforeach ?>".toList⟩,
    ⟨"@rawcode%s%*%s@endrawcode".toList, "<?vm $1 ?>".toList⟩,
    ⟨"@extends%s(%b)%s".toList, "<?vm layout.extend($1) ?>".toList⟩,
    ⟨"@section%s(%b)%*%s@endsection".toList,
      "<?vm layout.start_section($1) ?>$2<?vm layout.stop_section() ?>".toList⟩,
    ⟨"@section%s(%b)%s".toList, "<?vm layout.start_section($1) ?>".toList⟩,
    ⟨"@content%s(%b)%s".toList, "<?vm layout.content($1) ?>".toList⟩,
    ⟨"@include%s(%b)%s".toList, "<?vm layout.include($1) ?>".toList⟩,
    ⟨"@import%s(%b)%s".toList, "<?vm layout.import($1) ?>".toList⟩,
    ⟨"@hook%s(%b)%s".toList, "<?vm hook($1) ?>".toList⟩,
    ⟨"%^%s%n".toList, "".toList⟩]

def builtin : RuleTable := empty.registerAll builtinRules

end RuleTable

end Stencil
