import Mathlib.Data.List.Infix
import Stencil.Artifact.Node
import Stencil.Text.Brackets
import Stencil.Text.Letters

/-!
# Templates as items

A template as the author means it: texts, echoes, calls, and loops and sections with a body.

* `sourceAll` writes the items, `AllValid` says which of them can be told apart again; it can be
  decided.
* `nodesAll` is the program that says the same.
* `crop` takes away the blanks that the directives take with them: those right after a call, and
  those at the end of the body of a loop or a section.
-/

namespace Stencil.Template

open Artifact (Call Node)

/-! ## Items -/

/-- The kinds of directives with a body. -/
inductive Block
  | loop
  | region
  deriving DecidableEq, Repr

inductive Opening
  | loop (iterable binding : Text)
  | region (name : Text)
  deriving DecidableEq, Repr

inductive Item
  | text (text : Text)
  /-- An expression between blanks, in the braces of an escaped or of a raw echo. -/
  | echo (before expr after : Text) (escape : Bool)
  | call (operation : Call) (args : Text)
  | block (opening : Opening) (body : List Item)

/-! ## Written form -/

def echoOpen (escape : Bool) : Text := if escape then ['{', '{'] else ['{', '!']

def echoClose (escape : Bool) : Text := if escape then ['}', '}'] else ['!', '}']

def directive : Call → Text
  | .extend => "extends".toList
  | .startSection => "section".toList
  | .content => "content".toList
  | .includeView => "include".toList
  | .importView => "import".toList
  | .hook => "hook".toList

namespace Block

/-- The directive that starts a block, without its sign. -/
def word : Block → Text
  | .loop => "foreach".toList
  | .region => "section".toList

def endWord : Block → Text
  | .loop => "endforeach".toList
  | .region => "endsection".toList

end Block

namespace Opening

/-- The kind of block that is opened. -/
def block : Opening → Block
  | .loop _ _ => .loop
  | .region _ => .region

def head : Opening → Text
  | .loop iterable binding => iterable ++ " as ".toList ++ binding
  | .region name => name

end Opening

def calling (word args : Text) : Text := '@' :: word ++ ('(' :: args ++ [')'])

mutual

def Item.source : Item → Text
  | .text text => text
  | .echo before expr after escape => echoOpen escape ++ before ++ expr ++ after ++ echoClose escape
  | .call operation args => calling (directive operation) args
  | .block opening body =>
    calling opening.block.word opening.head ++ sourceAll body ++ '@' :: opening.block.endWord

def sourceAll : List Item → Text
  | [] => []
  | item :: items => item.source ++ sourceAll items

end

/-! ## Programs -/

mutual

def Item.nodes : Item → List Node
  | .text text => [.text text]
  | .echo _ expr _ escape => [.echo expr escape]
  | .call operation args => [.call operation args]
  | .block (.loop iterable binding) body => [.loop iterable binding (nodesAll body)]
  | .block (.region name) body => .call .startSection name :: nodesAll body ++ [.stopSection]

/-- The program of a template. -/
def nodesAll : List Item → List Node
  | [] => []
  | item :: items => item.nodes ++ nodesAll items

end

/-! ## Blanks that are taken -/

/-- A text without its blanks at the start or at the end. -/
def cut (atStart atEnd : Bool) (text : Text) : Text :=
  let text := if atStart then text.trimStart else text
  if atEnd then text.trimEnd else text

/-- The item takes the blanks behind it. -/
def Item.takesBlanks : Item → Bool
  | .call _ _ => true
  | _ => false

mutual

def Item.cropped (atStart atEnd : Bool) : Item → List Item
  | .text text =>
    if (cut atStart atEnd text).isEmpty then [] else [.text (cut atStart atEnd text)]
  | .echo before expr after escape => [.echo before expr after escape]
  | .call operation args => [.call operation args]
  | .block opening body => [.block opening (crop false true body)]

/-- Items without the blanks that are taken: those right after a call (`atStart` says that the items
come right after one) and those at the end of a body (`atEnd` says that the items end one). -/
def crop (atStart atEnd : Bool) : List Item → List Item
  | [] => []
  | item :: items =>
    item.cropped atStart (atEnd && items.isEmpty) ++ crop item.takesBlanks atEnd items

end

/-! ## Templates that can be told apart again -/

def IsBlanks (blanks : Text) : Prop :=
  ∀ c ∈ blanks, Text.isBlank c = true ∧ c ≠ '\r' ∧ c ≠ '\n'

/-- Text between directives. -/
structure IsText (text : Text) : Prop where
  nonempty : text ≠ []
  plain : ∀ c ∈ text, c ∉ ['@', '{', '<', '\r', '\n']

/-- Source of expressions: on one line, with its strings and brackets closed, and with nothing that
starts a directive or ends a tag. -/
structure IsCode (code : Text) : Prop where
  closed : Scan.start.run code = .plain 0
  noStray : ∀ done c more, code = done ++ c :: more → (Scan.start.run done).stray c = false
  noReturn : '\r' ∉ code
  noFeed : '\n' ∉ code
  noSign : '@' ∉ code
  noTagEnd : ¬ ['?', '>'] <:+: code

structure IsExpression (escape : Bool) (expr : Text) : Prop where
  code : IsCode expr
  trimmed : expr.trim = expr
  noOpener : '{' ∉ expr
  noCloser : '}' ∉ expr
  /-- A raw echo of nothing, or one that reads as an escaped echo, is none. -/
  raw : escape = false → expr ≠ [] ∧ ¬ "escape".toList <+: expr

structure IsArgument (args : Text) : Prop where
  code : IsCode args
  trimmed : args.trim = args
  noEcho : ∀ escape, ¬ echoOpen escape <:+: args

structure IsIdentifier (name : Text) : Prop where
  nonempty : name ≠ []
  letters : ∀ c ∈ name, Text.isAlphanumeric c = true ∨ c = '_'

/-- One name, or two with a comma between them. -/
def IsBinding (binding : Text) : Prop :=
  IsIdentifier binding ∨
    ∃ first second, IsIdentifier first ∧ IsIdentifier second ∧
      binding = first ++ ", ".toList ++ second

def Opening.Valid : Opening → Prop
  | .loop iterable binding => IsArgument iterable ∧ IsBinding binding
  | .region name => IsArgument name

def startsWithText : List Item → Bool
  | .text _ :: _ => true
  | _ => false

mutual

/-- The item can be told apart inside blocks of the kinds `inside`. -/
def Item.Valid (inside : List Block) : Item → Prop
  | .text text => IsText text
  | .echo before expr after escape =>
    IsBlanks before ∧ IsBlanks after ∧ IsExpression escape expr
  | .call operation args => operation ≠ .startSection ∧ IsArgument args
  | .block opening body =>
    opening.block ∉ inside ∧ opening.Valid ∧ AllValid (opening.block :: inside) body

/-- Every item can be told apart, and no text is next to another. -/
def AllValid (inside : List Block) : List Item → Prop
  | [] => True
  | item :: items =>
    item.Valid inside ∧ AllValid inside items ∧
      (startsWithText [item] = true → startsWithText items = false)

end

/-! ## Deciding -/

/-- Only the characters of a text are looked at, not all characters there are. -/
instance (priority := high) decidableForallMem (p : Char → Prop) [DecidablePred p] (text : Text) :
    Decidable (∀ c ∈ text, p c) :=
  List.decidableBAll p text

theorem noStray_cons_iff (scan : Scan) (c : Char) (code : Text) :
    (∀ done d more, c :: code = done ++ d :: more → (scan.run done).stray d = false) ↔
      scan.stray c = false ∧
        ∀ done d more, code = done ++ d :: more → ((scan.step c).run done).stray d = false := by
  constructor
  · intro h
    exact ⟨h [] c code rfl, fun done d more hd => h (c :: done) d more (by rw [hd]; rfl)⟩
  · rintro ⟨here, later⟩ done d more hd
    cases done with
    | nil =>
      obtain ⟨rfl, -⟩ := List.cons.inj hd
      exact here
    | cons e done =>
      obtain ⟨rfl, hrest⟩ := List.cons.inj hd
      exact later done d more hrest

/-- Whether a closing bracket closes nothing is found in one reading. -/
def decidableNoStray : (scan : Scan) → (code : Text) →
    Decidable (∀ done c more, code = done ++ c :: more → (scan.run done).stray c = false)
  | _, [] => isTrue (by simp)
  | scan, c :: code =>
    have := decidableNoStray (scan.step c) code
    decidable_of_iff _ (noStray_cons_iff scan c code).symm

instance (text : Text) : Decidable (IsText text) :=
  decidable_of_iff (text ≠ [] ∧ ∀ c ∈ text, c ∉ ['@', '{', '<', '\r', '\n'])
    ⟨fun ⟨a, b⟩ => ⟨a, b⟩, fun ⟨a, b⟩ => ⟨a, b⟩⟩

instance (blanks : Text) : Decidable (IsBlanks blanks) :=
  inferInstanceAs (Decidable (∀ c ∈ blanks, Text.isBlank c = true ∧ c ≠ '\r' ∧ c ≠ '\n'))

instance (code : Text) : Decidable (IsCode code) :=
  have := decidableNoStray .start code
  decidable_of_iff (Scan.start.run code = .plain 0 ∧
      (∀ done c more, code = done ++ c :: more → (Scan.start.run done).stray c = false) ∧
      '\r' ∉ code ∧ '\n' ∉ code ∧ '@' ∉ code ∧ ¬ ['?', '>'] <:+: code)
    ⟨fun ⟨a, b, c, d, e, f⟩ => ⟨a, b, c, d, e, f⟩, fun ⟨a, b, c, d, e, f⟩ => ⟨a, b, c, d, e, f⟩⟩

instance (escape : Bool) (expr : Text) : Decidable (IsExpression escape expr) :=
  decidable_of_iff (IsCode expr ∧ expr.trim = expr ∧ '{' ∉ expr ∧ '}' ∉ expr ∧
      (escape = false → expr ≠ [] ∧ ¬ "escape".toList <+: expr))
    ⟨fun ⟨a, b, c, d, e⟩ => ⟨a, b, c, d, e⟩, fun ⟨a, b, c, d, e⟩ => ⟨a, b, c, d, e⟩⟩

instance (args : Text) : Decidable (IsArgument args) :=
  decidable_of_iff (IsCode args ∧ args.trim = args ∧ ∀ escape, ¬ echoOpen escape <:+: args)
    ⟨fun ⟨a, b, c⟩ => ⟨a, b, c⟩, fun ⟨a, b, c⟩ => ⟨a, b, c⟩⟩

instance (name : Text) : Decidable (IsIdentifier name) :=
  decidable_of_iff (name ≠ [] ∧ ∀ c ∈ name, Text.isAlphanumeric c = true ∨ c = '_')
    ⟨fun ⟨a, b⟩ => ⟨a, b⟩, fun ⟨a, b⟩ => ⟨a, b⟩⟩

theorem isBinding_iff (binding : Text) :
    IsBinding binding ↔ IsIdentifier binding ∨ ∃ i < binding.length,
      IsIdentifier (binding.take i) ∧ IsIdentifier (binding.drop (i + 2)) ∧
        binding = binding.take i ++ ", ".toList ++ binding.drop (i + 2) := by
  constructor
  · rintro (h | ⟨first, second, hf, hs, rfl⟩)
    · exact Or.inl h
    · refine Or.inr ⟨first.length, by simp, ?_⟩
      have left : (first ++ ", ".toList ++ second).take first.length = first := by simp
      have right : (first ++ ", ".toList ++ second).drop (first.length + 2) = second := by
        simp [List.drop_append]
      rw [left, right]
      exact ⟨hf, hs, rfl⟩
  · rintro (h | ⟨i, -, hf, hs, h⟩)
    · exact Or.inl h
    · exact Or.inr ⟨_, _, hf, hs, h⟩

instance (binding : Text) : Decidable (IsBinding binding) :=
  decidable_of_iff _ (isBinding_iff binding).symm

instance : (opening : Opening) → Decidable opening.Valid
  | .loop iterable binding => inferInstanceAs (Decidable (IsArgument iterable ∧ IsBinding binding))
  | .region name => inferInstanceAs (Decidable (IsArgument name))

mutual

def Item.decidableValid (inside : List Block) : (item : Item) → Decidable (item.Valid inside)
  | .text t => inferInstanceAs (Decidable (IsText t))
  | .echo before expr after escape =>
    inferInstanceAs (Decidable (IsBlanks before ∧ IsBlanks after ∧ IsExpression escape expr))
  | .call operation args =>
    inferInstanceAs (Decidable (operation ≠ .startSection ∧ IsArgument args))
  | .block opening body =>
    have := AllValid.decidable (opening.block :: inside) body
    inferInstanceAs (Decidable (opening.block ∉ inside ∧ opening.Valid ∧
      AllValid (opening.block :: inside) body))

def AllValid.decidable (inside : List Block) :
    (items : List Item) → Decidable (AllValid inside items)
  | [] => isTrue trivial
  | item :: items =>
    have := Item.decidableValid inside item
    have := AllValid.decidable inside items
    inferInstanceAs (Decidable (item.Valid inside ∧ AllValid inside items ∧
      (startsWithText [item] = true → startsWithText items = false)))

end

instance (inside : List Block) (items : List Item) : Decidable (AllValid inside items) :=
  AllValid.decidable inside items

end Stencil.Template
