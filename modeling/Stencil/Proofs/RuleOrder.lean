import Mathlib.Data.List.Nodup
import Stencil.Project.Config

/-!
# The order of the rules

A rule that is registered is put behind those that are there, or in the place of the one with its
pattern. Proved here:

* `patterns_insertRule`, `find?_insertRule` and `insertRule_self`: what one registration does to the
  patterns, to what is found under a pattern, and when it does nothing;
* `Registered.ordered`: in every table that registering leads to, the patterns stand in the order of
  their first registration, and each has the replacement of its last one (`InOrder`);
* `registered_in_order`: so a table is a map in the order of insertion, and a configuration keeps
  the directives of the template language in their places.
-/

namespace Stencil.RuleTable

def patterns (table : RuleTable) : List Text := table.rules.map Rule.pattern

/-! ## One registration -/

theorem patterns_insertRule (rule : Rule) (rules : List Rule) :
    (insertRule rule rules).map Rule.pattern =
      if rule.pattern ∈ rules.map Rule.pattern then rules.map Rule.pattern
      else rules.map Rule.pattern ++ [rule.pattern] := by
  induction rules with
  | nil => rfl
  | cons other rest ih =>
    by_cases hp : other.pattern = rule.pattern
    · simp [insertRule, hp]
    · have apart : rule.pattern ≠ other.pattern := Ne.symm hp
      rw [insertRule, if_neg hp, List.map_cons, ih]
      by_cases hm : rule.pattern ∈ rest.map Rule.pattern <;> simp [hm, apart]

theorem find?_insertRule (rule : Rule) (rules : List Rule) (pattern : Text) :
    (insertRule rule rules).find? (·.pattern = pattern) =
      if rule.pattern = pattern then some rule else rules.find? (·.pattern = pattern) := by
  induction rules with
  | nil => by_cases hp : rule.pattern = pattern <;> simp [insertRule, hp]
  | cons other rest ih =>
    by_cases ho : other.pattern = rule.pattern
    · by_cases hp : rule.pattern = pattern <;> simp [insertRule, ho, hp]
    · rw [insertRule, if_neg ho, List.find?_cons, List.find?_cons, ih]
      by_cases hp : rule.pattern = pattern
      · have apart : other.pattern ≠ pattern := fun h => ho (h.trans hp.symm)
        simp [hp, apart]
      · simp [hp]

/-- A rule that is there already is put where it is. -/
theorem insertRule_self {rule : Rule} {rules : List Rule}
    (h : rules.find? (·.pattern = rule.pattern) = some rule) : insertRule rule rules = rules := by
  induction rules with
  | nil => cases h
  | cons other rest ih =>
    by_cases hp : other.pattern = rule.pattern
    · obtain rfl : other = rule := by simpa [hp] using h
      simp [insertRule]
    · rw [insertRule, if_neg hp, ih (by simpa [hp] using h)]

/-- A rule is found under its pattern when the patterns are distinct. -/
theorem find?_of_mem {rules : List Rule} (hn : (rules.map Rule.pattern).Nodup) {rule : Rule}
    (hr : rule ∈ rules) : rules.find? (·.pattern = rule.pattern) = some rule := by
  induction rules with
  | nil => cases hr
  | cons other rest ih =>
    obtain ⟨fresh, hn⟩ := List.nodup_cons.mp hn
    rcases List.mem_cons.mp hr with rfl | hr
    · simp
    · have apart : other.pattern ≠ rule.pattern := fun h => fresh (h ▸ List.mem_map_of_mem hr)
      simpa [apart] using ih hn hr

/-! ## Every registration -/

/-- The replacement with which a pattern was registered last. -/
def lastReplacement? (registered : List Rule) (pattern : Text) : Option Text :=
  (registered.reverse.find? (·.pattern = pattern)).map Rule.replacement

theorem lastReplacement?_concat (registered : List Rule) (rule : Rule) (pattern : Text) :
    lastReplacement? (registered ++ [rule]) pattern =
      if rule.pattern = pattern then some rule.replacement
      else lastReplacement? registered pattern := by
  unfold lastReplacement?
  by_cases hp : rule.pattern = pattern <;> simp [hp]

theorem lastReplacement?_append (registered more : List Rule) (pattern : Text) :
    lastReplacement? (registered ++ more) pattern =
      (lastReplacement? more pattern).or (lastReplacement? registered pattern) := by
  unfold lastReplacement?
  rw [List.reverse_append, List.find?_append, Option.map_or]

theorem isSome_lastReplacement? (registered : List Rule) (pattern : Text) :
    (lastReplacement? registered pattern).isSome ↔ pattern ∈ registered.map Rule.pattern := by
  simp [lastReplacement?]

theorem eraseDups_concat (patterns : List Text) (pattern : Text) :
    (patterns ++ [pattern]).eraseDups =
      if pattern ∈ patterns then patterns.eraseDups else patterns.eraseDups ++ [pattern] := by
  rw [List.eraseDups_append, List.cons_removeAll]
  by_cases hm : pattern ∈ patterns <;> simp [hm, List.removeAll, List.eraseDups_cons]

/-- The patterns stand as they were first registered, with the replacements that were registered
last. -/
structure InOrder (registered : List Rule) (table : RuleTable) : Prop where
  nodup : table.patterns.Nodup
  patterns : table.patterns = (registered.map Rule.pattern).eraseDups
  replacements : ∀ pattern, table.replacementFor? pattern = lastReplacement? registered pattern

theorem inOrder_empty : InOrder [] empty := ⟨List.nodup_nil, rfl, fun _ => rfl⟩

namespace InOrder

variable {registered : List Rule} {table : RuleTable} (h : InOrder registered table)

include h

theorem mem_patterns_iff (pattern : Text) :
    pattern ∈ table.patterns ↔ pattern ∈ registered.map Rule.pattern := by
  rw [h.patterns, List.mem_eraseDups]

theorem register (rule : Rule) : InOrder (registered ++ [rule]) (table.register rule) := by
  have patterns : (table.register rule).patterns =
      if rule.pattern ∈ table.patterns then table.patterns
      else table.patterns ++ [rule.pattern] := patterns_insertRule rule table.rules
  refine ⟨?_, ?_, fun pattern => ?_⟩
  · rw [patterns]
    split
    · exact h.nodup
    · next fresh => exact List.concat_eq_append ▸ h.nodup.concat fresh
  · have same := h.mem_patterns_iff rule.pattern
    rw [patterns, List.map_append, List.map_singleton, eraseDups_concat, ← h.patterns]
    simp only [same]
  · rw [lastReplacement?_concat, ← h.replacements, replacementFor?, RuleTable.register,
      find?_insertRule]
    split <;> rfl

theorem registerAll (more : List Rule) :
    InOrder (registered ++ more) (table.registerAll more) := by
  induction more generalizing registered table with
  | nil => rwa [List.append_nil]
  | cons rule more ih =>
    have rest := ih (h.register rule)
    rwa [List.append_assoc] at rest

/-- What is found under the pattern of a rule is that rule. -/
theorem replacement_of_mem {rule : Rule} (hr : rule ∈ table.rules) :
    lastReplacement? registered rule.pattern = some rule.replacement := by
  rw [← h.replacements, replacementFor?, find?_of_mem h.nodup hr]
  rfl

end InOrder

/-- The tables that registering leads to, with all that was registered, the first rule first. -/
inductive Registered : List Rule → RuleTable → Prop
  | empty : Registered [] empty
  | builtin : Registered builtinRules builtin
  | register {registered table} (rule : Rule) : Registered registered table →
      Registered (registered ++ [rule]) (table.register rule)
  | registerAll {registered table} (more : List Rule) : Registered registered table →
      Registered (registered ++ more) (table.registerAll more)

theorem Registered.inOrder {registered : List Rule} {table : RuleTable}
    (h : Registered registered table) : InOrder registered table := by
  induction h with
  | empty => exact inOrder_empty
  | builtin => exact inOrder_empty.registerAll builtinRules
  | register rule _ ih => exact ih.register rule
  | registerAll more _ ih => exact ih.registerAll more

/-- A rule that says what the table says already changes nothing. -/
theorem register_self {table : RuleTable} {pattern replacement : Text}
    (h : table.replacementFor? pattern = some replacement) :
    table.register ⟨pattern, replacement⟩ = table := by
  obtain ⟨rule, found, rfl⟩ := Option.map_eq_some_iff.mp h
  obtain rfl : rule.pattern = pattern := by simpa using List.find?_some found
  exact congrArg RuleTable.mk (insertRule_self found)

/-! ## Configurations -/

theorem validate_cons (rule : Rule) (rules : List Rule) :
    validate ⟨rule :: rules⟩ = rule.compile.bind fun _ => validate ⟨rules⟩ := by
  show (rule.compile.map fun _ => ()).bind (fun _ => validate ⟨rules⟩) = _
  cases rule.compile <;> rfl

theorem validate_eq_ok_iff {table : RuleTable} :
    table.validate = .ok () ↔ ∀ rule ∈ table.rules, ∃ compiled, rule.compile = .ok compiled := by
  obtain ⟨rules⟩ := table
  induction rules with
  | nil => simp [validate, pure, Except.pure]
  | cons rule rules ih =>
    rw [validate_cons, List.forall_mem_cons, ← ih]
    cases rule.compile with
    | ok compiled => simp [Except.bind]
    | error malformed => simp [Except.bind]

/-- The table of a configuration is what its directives make of the template language, and there is
one when every rule in it can be read. -/
theorem ruleTable_eq_ok_iff {config : Config} {table : RuleTable} :
    config.ruleTable = .ok table ↔
      table = builtin.registerAll config.directives ∧
        ∀ rule ∈ table.rules, ∃ compiled, rule.compile = .ok compiled := by
  simp only [Config.ruleTable]
  split
  · next valid =>
    constructor
    · rintro ⟨⟩
      exact ⟨rfl, validate_eq_ok_iff.mp valid⟩
    · rintro ⟨rfl, -⟩
      rfl
  · next malformed invalid =>
    constructor
    · rintro ⟨⟩
    · rintro ⟨rfl, all⟩
      rw [validate_eq_ok_iff.mpr all] at invalid
      cases invalid

theorem inOrder_ruleTable {config : Config} {table : RuleTable}
    (h : config.ruleTable = .ok table) : InOrder (builtinRules ++ config.directives) table := by
  obtain ⟨rfl, -⟩ := ruleTable_eq_ok_iff.mp h
  exact (Registered.builtin.registerAll config.directives).inOrder

/-- The patterns that are new follow those of the template language in their own order. -/
theorem patterns_ruleTable {config : Config} {table : RuleTable}
    (h : config.ruleTable = .ok table) :
    table.patterns = builtinRules.map Rule.pattern ++
      ((config.directives.map Rule.pattern).filter
        (· ∉ builtinRules.map Rule.pattern)).eraseDups := by
  have distinct : (builtinRules.map Rule.pattern).eraseDups = builtinRules.map Rule.pattern := by
    decide
  rw [(inOrder_ruleTable h).patterns, List.map_append, List.eraseDups_append, distinct,
    List.removeAll]
  simp only [List.elem_eq_contains, List.contains_eq_mem, decide_not]

/-- A table has each pattern that was registered once, in the order of the first registrations, and
with the replacement of the last one, which is also what is looked up. To register it again changes
nothing. A configuration whose rules can be read has a table. In it the twelve patterns of the
template language stand where they stand without the configuration, then those that are new, in the
order of the configuration; a replacement of the configuration goes before one of the template
language. -/
theorem registered_in_order :
    (∀ registered table, Registered registered table →
      table.patterns.Nodup ∧
        table.patterns = (registered.map Rule.pattern).eraseDups ∧
        (∀ rule ∈ table.rules,
          lastReplacement? registered rule.pattern = some rule.replacement) ∧
        (∀ pattern, table.replacementFor? pattern = lastReplacement? registered pattern ∧
          ((table.replacementFor? pattern).isSome ↔ pattern ∈ registered.map Rule.pattern)) ∧
        ∀ pattern replacement, table.replacementFor? pattern = some replacement →
          table.register ⟨pattern, replacement⟩ = table) ∧
      builtinRules.length = 12 ∧
      ∀ (config : Config) (table : RuleTable),
        (config.ruleTable = .ok table ↔
          table = builtin.registerAll config.directives ∧
            ∀ rule ∈ table.rules, ∃ compiled, rule.compile = .ok compiled) ∧
        (config.ruleTable = .ok table →
          table.patterns = builtinRules.map Rule.pattern ++
            ((config.directives.map Rule.pattern).filter
              (· ∉ builtinRules.map Rule.pattern)).eraseDups ∧
          ∀ rule ∈ table.rules,
            (lastReplacement? config.directives rule.pattern).or
              (lastReplacement? builtinRules rule.pattern) = some rule.replacement) := by
  refine ⟨fun registered table h => ?_, rfl, fun config table => ⟨ruleTable_eq_ok_iff, fun h => ?_⟩⟩
  · have ordered := h.inOrder
    refine ⟨ordered.nodup, ordered.patterns, fun rule hr => ordered.replacement_of_mem hr,
      fun pattern => ⟨ordered.replacements pattern, ?_⟩, fun _ _ => register_self⟩
    rw [ordered.replacements, isSome_lastReplacement?]
  · refine ⟨patterns_ruleTable h, fun rule hr => ?_⟩
    rw [← lastReplacement?_append, (inOrder_ruleTable h).replacement_of_mem hr]

def shouting : List Rule :=
  [⟨"@up(%b)".toList, "$1".toList⟩,
    ⟨"{{%s%?%s}}".toList, "<?vm echo $1 ?>".toList⟩,
    ⟨"@up(%b)".toList, "<?vm echo $1|upper ?>".toList⟩]

theorem ruleTable_shouting : ({ Config.default with directives := shouting } : Config).ruleTable =
    .ok (builtin.registerAll shouting) := by
  rfl

theorem registered_in_order_shouting :
    Registered (builtinRules ++ shouting) (builtin.registerAll shouting) ∧
      (builtin.registerAll shouting).replacementFor? "@up(%b)".toList =
        some "<?vm echo $1|upper ?>".toList ∧
      (builtin.registerAll shouting).register
          ⟨"@up(%b)".toList, "<?vm echo $1|upper ?>".toList⟩ = builtin.registerAll shouting ∧
      ({ Config.default with directives := shouting } : Config).ruleTable =
        .ok (builtin.registerAll shouting) ∧
      (builtin.registerAll shouting).patterns =
        builtinRules.map Rule.pattern ++ ["@up(%b)".toList] := by
  obtain ⟨tables, -, configured⟩ := registered_in_order
  have registered : Registered (builtinRules ++ shouting) (builtin.registerAll shouting) :=
    .registerAll shouting .builtin
  obtain ⟨-, -, -, found, again⟩ := tables _ _ registered
  have last : (builtin.registerAll shouting).replacementFor? "@up(%b)".toList =
      some "<?vm echo $1|upper ?>".toList := (found _).1
  exact ⟨registered, last, again _ _ last, ruleTable_shouting,
    ((configured _ _).2 ruleTable_shouting).1⟩

end Stencil.RuleTable
