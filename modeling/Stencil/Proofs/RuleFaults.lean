import Stencil.Proofs.RuleMatches
import Stencil.Proofs.RuleOrder

/-!
# Faults of rules

A table is checked as a whole by `validate`, and rule by rule by `compile`, which comes to a rule
only after the rules before it have changed the text. Proved here:

* `Pattern.parse_eq_error_iff`: a source form is no pattern when it is empty, or when one of its
  percent signs is the last character or stands before a letter that is no token (`Broken`);
* `Replacement.highest_parse_iff`: the greatest capture that a replacement asks for is the greatest
  one that its source form refers to;
* `Rule.compile_eq_error_iff`: so a rule cannot be used exactly when it is faulty, and then says how
  (`Rule.Faulty`);
* `RuleTable.validate_eq`: whatever the text is, both checks come to the same;
* `RuleTable.compile_validates`: they fail at the first rule that is faulty, and with its fault.
-/

namespace Stencil

/-! ## Source forms that are no patterns -/

namespace Pattern

open Segment (ofLetter? exists_ofLetter? mem_tokenLetters)

theorem notMem_tokenLetters_iff {letter : Char} :
    letter ∉ tokenLetters ↔ letter ≠ '%' ∧ ofLetter? letter = none := by
  constructor
  · intro unknown
    refine ⟨?_, ?_⟩
    · rintro rfl
      exact unknown (by decide)
    · cases named : ofLetter? letter with
      | none => rfl
      | some segment => exact absurd (mem_tokenLetters named) unknown
  · rintro ⟨single, nameless⟩ known
    obtain ⟨segment, named⟩ := exists_ofLetter? known single
    rw [nameless] at named
    cases named

/-- What is wrong with a source form that is no pattern. -/
inductive Broken : Text → Fault → Prop
  | trailingPercent {form : Text} (before : SourceForm form) :
      Broken (form ++ ['%']) .trailingPercent
  | unknownLetter {form rest : Text} {letter : Char} (before : SourceForm form)
      (unknown : letter ∉ tokenLetters) :
      Broken (form ++ '%' :: letter :: rest) (.unknownLetter letter)
  | empty : Broken [] .empty

/-- The same is wrong behind more that has the form of a source. -/
theorem Broken.behind {source : Text} {fault : Fault} (h : Broken source fault)
    (hn : fault ≠ .empty) (front : Text)
    (hf : ∀ form, SourceForm form → SourceForm (front ++ form)) :
    Broken (front ++ source) fault := by
  cases h with
  | trailingPercent before =>
    rw [← List.append_assoc]
    exact .trailingPercent (hf _ before)
  | unknownLetter before unknown =>
    rw [← List.append_assoc]
    exact .unknownLetter (hf _ before) unknown
  | empty => exact absurd rfl hn

theorem broken_of_read {source : Text} {fault : Fault} (h : read source = .error fault) :
    Broken source fault ∧ fault ≠ .empty := by
  induction source using read.induct generalizing fault with
  | case1 => cases h
  | case2 =>
    cases h
    exact ⟨.trailingPercent .nil, by simp⟩
  | case3 rest ih =>
    obtain ⟨broken, ne⟩ := ih (error_of_map_eq_error h)
    exact ⟨broken.behind ne ['%', '%'] fun _ => .token (by decide), ne⟩
  | case4 letter rest _ segment named ih =>
    rw [read_token named] at h
    obtain ⟨broken, ne⟩ := ih (error_of_map_eq_error h)
    exact ⟨broken.behind ne ['%', letter] fun _ => .token (mem_tokenLetters named), ne⟩
  | case5 letter rest doubled nameless =>
    rw [read, nameless] at h
    · cases h
      have broken : Broken ([] ++ '%' :: letter :: rest) (.unknownLetter letter) :=
        .unknownLetter .nil (notMem_tokenLetters_iff.mpr ⟨doubled, nameless⟩)
      exact ⟨broken, by simp⟩
    · exact doubled
  | case6 c rest single doubled named ih =>
    have plain : c ≠ '%' := by
      rintro rfl
      cases rest with
      | nil => exact single rfl rfl
      | cons letter rest => exact named letter rest rfl rfl
    have read := read_char c rest
    rw [Segment.printChar, if_neg plain, List.singleton_append, h] at read
    obtain ⟨broken, ne⟩ := ih (error_of_map_eq_error read.symm)
    exact ⟨broken.behind ne [c] fun _ => .char plain, ne⟩

/-- What cannot be read cannot be read either behind what has the form of a source. -/
theorem read_append_error {form rest : Text} {fault : Fault} (h : SourceForm form)
    (hr : read rest = .error fault) : read (form ++ rest) = .error fault := by
  induction h with
  | nil => exact hr
  | @char c form plain _ ih =>
    have read := read_char c (form ++ rest)
    rwa [ih, Segment.printChar, if_neg plain] at read
  | @token letter form known _ ih =>
    by_cases hp : letter = '%'
    · subst hp
      have read := read_char '%' (form ++ rest)
      rwa [ih] at read
    · obtain ⟨segment, named⟩ := exists_ofLetter? known hp
      rw [List.cons_append, List.cons_append, read_token named, ih]
      rfl

theorem read_of_broken {source : Text} {fault : Fault} (h : Broken source fault)
    (hn : fault ≠ .empty) : read source = .error fault := by
  cases h with
  | trailingPercent before => exact read_append_error before rfl
  | @unknownLetter form rest letter before unknown =>
    obtain ⟨single, nameless⟩ := notMem_tokenLetters_iff.mp unknown
    refine read_append_error before ?_
    rw [read, nameless]
    exact single
  | empty => exact absurd rfl hn

theorem parse_eq_error_iff {source : Text} {fault : Fault} :
    parse source = .error fault ↔ Broken source fault := by
  constructor
  · intro h
    unfold parse at h
    split at h
    · next hr =>
      cases h
      have nothing := (read_ok hr).2.1
      rw [← nothing]
      exact .empty
    · cases h
    · next hr =>
      cases h
      exact (broken_of_read hr).1
  · intro h
    by_cases hn : fault = .empty
    · subst hn
      cases h
      rfl
    · rw [parse, read_of_broken h hn]

end Pattern

/-! ## References of replacements -/

theorem RefersTo.behind {source digits : Text} (h : RefersTo source digits) (front : Text) :
    RefersTo (front ++ source) digits := by
  obtain ⟨before, after, rfl, rest⟩ := h
  exact ⟨front ++ before, after, by rw [List.append_assoc], rest⟩

namespace Replacement

/-- What has been read since the last dollar sign, with that sign, when the reading stands at a
place. -/
inductive Pending : Reading → Text → Prop
  | text : Pending .text []
  | dollar : Pending .dollar ['$']
  | reference {digits : Text} {number : Nat} (ne : digits ≠ [])
      (all : ∀ c ∈ digits, Text.isDigit c = true) (value : Text.decimal digits = number) :
      Pending (.reference number) ('$' :: digits)

/-- A digit behind a dollar sign and other digits is pending with them. -/
theorem Pending.digit (digits : Text) {c : Char} (all : ∀ c ∈ digits, Text.isDigit c = true)
    (hc : Text.isDigit c = true) :
    Pending (.reference (10 * Text.decimal digits + Text.digitValue c))
      ('$' :: (digits ++ [c])) := by
  refine .reference (by simp) (fun d hd => ?_) (by simp [Text.decimal])
  rcases List.mem_append.mp hd with hd | hd
  · exact all d hd
  · exact List.mem_singleton.mp hd ▸ hc

/-- A capture that is read is referred to, in what is pending or in what is still to come. -/
theorem exists_refersTo_of_mem {state : Reading} {pending rest : Text} {index : Nat}
    (hp : Pending state pending) (h : .capture index ∈ readFrom state rest) :
    ∃ digits, RefersTo (pending ++ rest) digits ∧ indexOf digits = index := by
  induction rest generalizing state pending with
  | nil =>
    cases hp with
    | text => simp [readFrom] at h
    | dollar => simp [readFrom] at h
    | @reference digits number ne all value =>
      have here : index = indexOf digits := by simpa [readFrom, indexOf, value] using h
      exact ⟨digits, ⟨[], [], rfl, ne, all, by simp⟩, here.symm⟩
  | cons c rest ih =>
    -- Outside a reference the character is a dollar sign that is pending from now on, or text.
    have plain (front : Text) (hm : .capture index ∈ readPlain (readFrom · rest) c) :
        ∃ digits, RefersTo (front ++ c :: rest) digits ∧ indexOf digits = index := by
      unfold readPlain at hm
      split at hm
      · next hc =>
        subst hc
        obtain ⟨digits, refers, here⟩ := ih .dollar hm
        exact ⟨digits, refers.behind front, here⟩
      · have later : .capture index ∈ readFrom .text rest := by simpa using hm
        obtain ⟨digits, refers, here⟩ := ih .text later
        have further := refers.behind (front ++ [c])
        exact ⟨digits, by simpa using further, here⟩
    cases hp with
    | text => exact plain [] h
    | dollar =>
      rw [readFrom] at h
      split at h
      · next hd =>
        have first : Pending (.reference (Text.digitValue c)) ['$', c] := by
          simpa [Text.decimal] using Pending.digit [] (by simp) hd
        exact ih first h
      · exact plain ['$'] (by simpa using h)
    | @reference digits number ne all value =>
      subst value
      rw [readFrom] at h
      split at h
      · next hd =>
        obtain ⟨digits', refers, here⟩ := ih (Pending.digit digits all hd) h
        exact ⟨digits', by simpa using refers, here⟩
      · next hd =>
        rcases List.mem_cons.mp h with here | h
        · have ends : ∀ d, (c :: rest).head? = some d → Text.isDigit d = false := by
            rintro d ⟨⟩
            simpa using hd
          exact ⟨digits, ⟨[], c :: rest, rfl, ne, all, ends⟩, (Piece.capture.inj here).symm⟩
        · exact plain ('$' :: digits) h

/-- A replacement asks for the captures that its source form refers to. -/
theorem mem_parse_iff {source : Text} {index : Nat} :
    .capture index ∈ parse source ↔ ∃ digits, RefersTo source digits ∧ indexOf digits = index := by
  constructor
  · exact exists_refersTo_of_mem .text
  · rintro ⟨digits, refers, rfl⟩
    exact mem_parse_of_refersTo refers

theorem capture_highest_mem {r : Replacement} (h : r.highest ≠ 0) : .capture r.highest ∈ r := by
  induction r with
  | nil => exact absurd rfl h
  | cons piece r ih =>
    cases piece with
    | char c => exact List.mem_cons_of_mem _ (ih h)
    | capture index =>
      have top : highest (.capture index :: r) = max index (highest r) := rfl
      rw [top] at h ⊢
      rcases Nat.le_total (highest r) index with hle | hle
      · rw [Nat.max_eq_left hle]
        exact List.mem_cons_self
      · rw [Nat.max_eq_right hle] at h ⊢
        exact List.mem_cons_of_mem _ (ih h)

/-- The source form refers to this capture and to none with a greater number. -/
def RefersUpTo (source : Text) (index : Nat) : Prop :=
  (∃ digits, RefersTo source digits ∧ indexOf digits = index) ∧
    ∀ digits, RefersTo source digits → indexOf digits ≤ index

theorem highest_parse_iff {source : Text} {index : Nat} (h : 0 < index) :
    (parse source).highest = index ↔ RefersUpTo source index := by
  have le {digits : Text} (refers : RefersTo source digits) :
      indexOf digits ≤ (parse source).highest := le_highest (mem_parse_of_refersTo refers)
  constructor
  · rintro rfl
    exact ⟨mem_parse_iff.mp (capture_highest_mem (by omega)), fun _ => le⟩
  · rintro ⟨⟨digits, refers, rfl⟩, greatest⟩
    refine Nat.le_antisymm ?_ (le refers)
    by_cases hz : (parse source).highest = 0
    · omega
    · obtain ⟨top, refersTop, here⟩ := mem_parse_iff.mp (capture_highest_mem hz)
      exact here ▸ greatest top refersTop

end Replacement

/-! ## Rules -/

namespace Rule

open Replacement (RefersUpTo highest_parse_iff)

/-- What is wrong with a rule that cannot be used: its pattern is none, or its replacement refers to
a capture beyond those of the pattern. -/
inductive Faulty (rule : Rule) : Fault → Prop
  | pattern {fault : Pattern.Fault} (broken : Pattern.Broken rule.pattern fault) :
      Faulty rule (.pattern fault)
  | missingCapture {p : Pattern} {index : Nat} (read : Pattern.parse rule.pattern = .ok p)
      (refers : RefersUpTo rule.replacement index) (beyond : p.captureCount < index) :
      Faulty rule (.missingCapture index p.captureCount)

theorem compile_eq_error_iff {rule : Rule} {malformed : Malformed} :
    rule.compile = .error malformed ↔
      malformed.pattern = rule.pattern ∧ rule.Faulty malformed.fault := by
  unfold compile
  constructor
  · intro h
    split at h
    · next fault hp =>
      cases h
      exact ⟨rfl, .pattern (Pattern.parse_eq_error_iff.mp hp)⟩
    · next p hp =>
      split at h
      · cases h
      · next beyond =>
        cases h
        have beyond := Nat.lt_of_not_le beyond
        exact ⟨rfl, .missingCapture hp ((highest_parse_iff (by omega)).mp rfl) beyond⟩
  · obtain ⟨pattern, fault⟩ := malformed
    rintro ⟨rfl, faulty⟩
    cases faulty with
    | pattern broken => rw [Pattern.parse_eq_error_iff.mpr broken]
    | @missingCapture p index read refers beyond =>
      have top : (Replacement.parse rule.replacement).highest = index :=
        (highest_parse_iff (by omega)).mpr refers
      simp only [read, top]
      rw [dif_neg (Nat.not_le_of_lt beyond)]

theorem exists_compile_iff {rule : Rule} :
    (∃ compiled, rule.compile = .ok compiled) ↔ ∀ fault, ¬ rule.Faulty fault := by
  constructor
  · rintro ⟨compiled, h⟩ fault faulty
    have failed : rule.compile = .error ⟨rule.pattern, fault⟩ :=
      compile_eq_error_iff.mpr ⟨rfl, faulty⟩
    rw [h] at failed
    cases failed
  · intro h
    cases hc : rule.compile with
    | ok compiled => exact ⟨compiled, rfl⟩
    | error malformed => exact absurd (compile_eq_error_iff.mp hc).2 (h _)

end Rule

/-! ## Tables -/

namespace RuleTable

/-- The rules in front of one are not faulty, and it is, in this way. -/
def FailsFirst (rules : List Rule) (malformed : Rule.Malformed) : Prop :=
  ∃ before rule after, rules = before ++ rule :: after ∧
    (∀ earlier ∈ before, ∀ fault, ¬ earlier.Faulty fault) ∧
    malformed.pattern = rule.pattern ∧ rule.Faulty malformed.fault

/-- The check beforehand comes to what applying the rules to a text comes to. -/
theorem validate_eq (table : RuleTable) (source : Text) :
    table.validate = (table.compile source).map fun _ => () := by
  obtain ⟨rules⟩ := table
  show validate ⟨rules⟩ = (compileWith rules source).map fun _ => ()
  induction rules generalizing source with
  | nil => rfl
  | cons rule rules ih =>
    rw [validate_cons, compileWith]
    cases rule.compile with
    | ok compiled => exact ih (compiled.apply source)
    | error malformed => rfl

theorem failsFirst_cons_iff {rule : Rule} {rules : List Rule} {malformed : Rule.Malformed} :
    FailsFirst (rule :: rules) malformed ↔
      (malformed.pattern = rule.pattern ∧ rule.Faulty malformed.fault) ∨
        (∀ fault, ¬ rule.Faulty fault) ∧ FailsFirst rules malformed := by
  constructor
  · rintro ⟨before, first, after, split, sound, same, faulty⟩
    cases before with
    | nil =>
      obtain ⟨rfl, rfl⟩ := List.cons.inj split
      exact Or.inl ⟨same, faulty⟩
    | cons other before =>
      obtain ⟨rfl, rfl⟩ := List.cons.inj split
      obtain ⟨here, behind⟩ := List.forall_mem_cons.mp sound
      exact Or.inr ⟨here, before, first, after, rfl, behind, same, faulty⟩
  · rintro (⟨same, faulty⟩ | ⟨here, before, first, after, rfl, behind, same, faulty⟩)
    · exact ⟨[], rule, rules, rfl, by simp, same, faulty⟩
    · exact ⟨rule :: before, first, after, rfl, List.forall_mem_cons.mpr ⟨here, behind⟩, same,
        faulty⟩

theorem validate_eq_error_iff {table : RuleTable} {malformed : Rule.Malformed} :
    table.validate = .error malformed ↔ FailsFirst table.rules malformed := by
  obtain ⟨rules⟩ := table
  induction rules with
  | nil => simp [validate, pure, Except.pure, FailsFirst]
  | cons rule rules ih =>
    rw [validate_cons, failsFirst_cons_iff, ← Rule.compile_eq_error_iff, ← Rule.exists_compile_iff,
      ← ih]
    cases rule.compile with
    | ok compiled => simp [Except.bind]
    | error other => simp [Except.bind]

/-- A text is compiled exactly when the table is valid, which it is exactly when no rule in it is
faulty. Otherwise compiling the text and checking the table fail alike, with the fault of the first
faulty rule. A configuration has a table exactly when its rules are not faulty, and with that table
every text is compiled; the configuration fails with what compiling would fail with. -/
theorem compile_validates (table : RuleTable) (source : Text) :
    ((∃ out, table.compile source = .ok out) ↔ table.validate = .ok ()) ∧
      (table.validate = .ok () ↔ ∀ rule ∈ table.rules, ∀ fault, ¬ rule.Faulty fault) ∧
      (∀ malformed,
        (table.compile source = .error malformed ↔ FailsFirst table.rules malformed) ∧
          (table.validate = .error malformed ↔ FailsFirst table.rules malformed)) ∧
      ∀ config : Config,
        (config.ruleTable = .ok table → ∃ out, table.compile source = .ok out) ∧
          ∀ error, config.ruleTable = .error error ↔ ∃ malformed, error = .rule malformed ∧
            FailsFirst (builtin.registerAll config.directives).rules malformed := by
  have agree := table.validate_eq source
  have succeeds : (∃ out, table.compile source = .ok out) ↔ table.validate = .ok () := by
    rw [agree]
    cases table.compile source <;> simp [Except.map]
  have fails (malformed : Rule.Malformed) :
      table.compile source = .error malformed ↔ table.validate = .error malformed := by
    rw [agree]
    cases table.compile source <;> simp [Except.map]
  refine ⟨succeeds, ?_, fun malformed => ⟨(fails malformed).trans validate_eq_error_iff,
    validate_eq_error_iff⟩, fun config => ⟨fun configured => ?_, fun error => ?_⟩⟩
  · simp only [validate_eq_ok_iff, Rule.exists_compile_iff]
  · obtain ⟨-, sound⟩ := ruleTable_eq_ok_iff.mp configured
    exact succeeds.mpr (validate_eq_ok_iff.mpr sound)
  · simp only [Config.ruleTable, ← validate_eq_error_iff]
    cases (builtin.registerAll config.directives).validate with
    | ok _ => simp
    | error malformed => simp [eq_comm]

def misspelt : List Rule :=
  [⟨"@up(%b)".toList, "$1".toList⟩, ⟨"@down(%b)".toList, "$1$2".toList⟩, ⟨"@left%".toList, []⟩]

theorem compile_validates_misspelt :
    ({ Config.default with directives := shouting } : Config).ruleTable =
        .ok (builtin.registerAll shouting) ∧
      (∃ out, (builtin.registerAll shouting).compile "@up(x)".toList = .ok out) ∧
      (empty.registerAll misspelt).validate =
        .error ⟨"@down(%b)".toList, .missingCapture 2 1⟩ ∧
      FailsFirst (empty.registerAll misspelt).rules ⟨"@down(%b)".toList, .missingCapture 2 1⟩ ∧
      (empty.registerAll misspelt).compile "@up(@left)".toList =
        .error ⟨"@down(%b)".toList, .missingCapture 2 1⟩ := by
  have invalid : (empty.registerAll misspelt).validate =
      .error ⟨"@down(%b)".toList, .missingCapture 2 1⟩ := by decide +kernel
  obtain ⟨-, -, -, configured⟩ := compile_validates (builtin.registerAll shouting) "@up(x)".toList
  obtain ⟨-, -, same, -⟩ := compile_validates (empty.registerAll misspelt) "@up(@left)".toList
  obtain ⟨compiles, validates⟩ := same ⟨"@down(%b)".toList, .missingCapture 2 1⟩
  have first := validates.mp invalid
  exact ⟨ruleTable_shouting, (configured _).1 ruleTable_shouting, invalid, first,
    compiles.mpr first⟩

end RuleTable

end Stencil
