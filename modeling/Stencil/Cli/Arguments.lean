import Stencil.Text.Basic

/-!
# Command line arguments

The command line names a command and gives switches before it, behind it, or on both sides. A switch
has a long name with two dashes and perhaps a letter with one; letters can be written together. Two
dashes alone end the switches. A switch counts once on each side of the command, and what stands
behind the command wins.

`Request.parse` reads the words of a command line. It answers nothing when they make no sense.
-/

namespace Stencil.Cli

inductive Command
  | compile (views : List Text) (all force watch : Bool)
  | render (view : Text) (data : Option Text)
  deriving DecidableEq, Repr

/-- What a command line asks for, when it asks for a command at all. -/
structure Invocation where
  /-- The root of the project. -/
  path : Option Text
  verbose : Bool
  noColor : Bool
  command : Option Command
  deriving DecidableEq, Repr

inductive Request
  | run (invocation : Invocation)
  | version
  | help
  deriving DecidableEq, Repr

inductive Switch
  | path
  | verbose
  | noColor
  | version
  | help
  | all
  | force
  | watch
  | data
  deriving DecidableEq, Repr

namespace Switch

/-- The name behind two dashes. -/
def long : Switch → Text
  | .path => "path".toList
  | .verbose => "verbose".toList
  | .noColor => "no-color".toList
  | .version => "version".toList
  | .help => "help".toList
  | .all => "all".toList
  | .force => "force".toList
  | .watch => "watch".toList
  | .data => "data".toList

/-- The letter behind one dash. -/
def short? : Switch → Option Char
  | .path => some 'p'
  | .verbose => some 'v'
  | .version => some 'V'
  | .help => some 'h'
  | _ => none

def takesValue : Switch → Bool
  | .path | .data => true
  | _ => false

def allows : Switch → Text → Bool
  | .path, value => !value.isEmpty
  | _, _ => true

/-- The switches in front of a command. -/
def common : List Switch := [.path, .verbose, .noColor, .version, .help]

def ofCompile : List Switch := [.all, .force, .watch, .path, .verbose, .noColor, .help]

def ofRender : List Switch := [.data, .path, .verbose, .noColor, .help]

end Switch

/-- What one side of a command line gives. -/
structure Given where
  switches : List (Switch × Text)
  words : List Text
  deriving DecidableEq, Repr

/-- Why the reading of a command line ends before its end. -/
inductive Interruption
  | usage
  | version
  | help
  deriving DecidableEq, Repr

namespace Given

def nothing : Given := ⟨[], []⟩

def has (g : Given) (switch : Switch) : Bool := g.switches.any (·.1 = switch)

def value? (g : Given) (switch : Switch) : Option Text := g.switches.lookup switch

/-- Gives a switch, which may be given once. -/
def add (g : Given) (switch : Switch) (value : Text) : Except Interruption Given :=
  match switch with
  | .version => .error .version
  | .help => .error .help
  | switch =>
    if g.has switch || !switch.allows value then .error .usage
    else .ok { g with switches := g.switches ++ [(switch, value)] }

def addWord (g : Given) (word : Text) : Given := { g with words := g.words ++ [word] }

end Given

def looksLikeSwitch (word : Text) : Bool :=
  match word with
  | '-' :: _ :: _ => true
  | _ => false

/-- Gives a switch that has no value of its own in the word where it stands: the value is the next
word. Also answers the words behind. -/
def takeValue (g : Given) (switch : Switch) (rest : List Text) :
    Except Interruption (Given × List Text) :=
  if switch.takesValue then
    match rest with
    | value :: rest =>
      if looksLikeSwitch value then .error .usage
      else (g.add switch value).map fun g => (g, rest)
    | [] => .error .usage
  else (g.add switch []).map fun g => (g, rest)

/-- Gives the switches of letters that are written together; a value takes all letters behind its
switch, or the next word. -/
def takeLetters (switches : List Switch) (g : Given) (rest : List Text) :
    Text → Except Interruption (Given × List Text)
  | [] => .ok (g, rest)
  | letter :: letters =>
    match switches.find? fun switch => switch.short? = some letter with
    | none => .error .usage
    | some switch =>
      if switch.takesValue && !letters.isEmpty then
        let value := if letters.head? == some '=' then letters.tail else letters
        (g.add switch value).map fun g => (g, rest)
      else
        match takeValue g switch rest with
        | .error interruption => .error interruption
        | .ok (g, rest) =>
          if letters.isEmpty then .ok (g, rest) else takeLetters switches g rest letters

/-- Gives the switch of a long name, which may have its value behind an equals sign. -/
def takeLong (switches : List Switch) (g : Given) (rest : List Text) (body : Text) :
    Except Interruption (Given × List Text) :=
  let (name, value) :=
    match Text.cut? ['='] body with
    | some (name, value) => (name, some value)
    | none => (body, none)
  match switches.find? fun switch => switch.long = name, value with
  | none, _ => .error .usage
  | some switch, none => takeValue g switch rest
  | some switch, some value =>
    if switch.takesValue then (g.add switch value).map fun g => (g, rest) else .error .usage

/-- Reads words as far as switches go and, with `words`, plain words go. -/
def scan (switches : List Switch) (words : Bool) :
    Nat → Given → List Text → Except Interruption (Given × List Text)
  | 0, g, rest => .ok (g, rest)
  | _, g, [] => .ok (g, [])
  | fuel + 1, g, word :: rest =>
    match word with
    | ['-', '-'] =>
      if words then .ok ({ g with words := g.words ++ rest }, [])
      else if rest.isEmpty then .ok (g, []) else .error .usage
    | '-' :: '-' :: body =>
      match takeLong switches g rest body with
      | .error interruption => .error interruption
      | .ok (g, rest) => scan switches words fuel g rest
    | '-' :: letter :: letters =>
      match takeLetters switches g rest (letter :: letters) with
      | .error interruption => .error interruption
      | .ok (g, rest) => scan switches words fuel g rest
    | word =>
      if words then scan switches words fuel (g.addWord word) rest else .ok (g, word :: rest)

/-- Help can be had about this: everything, or one command. -/
def isHelpTopic (words : List Text) : Bool :=
  words.isEmpty || ["compile", "render", "help"].any fun name => words = [name.toList]

def readCommand (name : Text) (rest : List Text) : Except Interruption (Given × Command) :=
  if name = "compile".toList then
    match scan Switch.ofCompile true rest.length .nothing rest with
    | .error interruption => .error interruption
    | .ok (g, _) => .ok (g, .compile g.words (g.has .all) (g.has .force) (g.has .watch))
  else if name = "render".toList then
    match scan Switch.ofRender true rest.length .nothing rest with
    | .error interruption => .error interruption
    | .ok (g, _) =>
      match g.words with
      | [view] => .ok (g, .render view (g.value? .data))
      | _ => .error .usage
  else if name = "help".toList then .error (if isHelpTopic rest then .help else .usage)
  else .error .usage

def combine (before behind : Given) (command : Option Command) : Invocation :=
  ⟨(behind.value? .path).or (before.value? .path), before.has .verbose || behind.has .verbose,
    before.has .noColor || behind.has .noColor, command⟩

def read (words : List Text) : Except Interruption Invocation :=
  match scan Switch.common false words.length .nothing words with
  | .error interruption => .error interruption
  | .ok (before, []) => .ok (combine before .nothing none)
  | .ok (before, name :: rest) =>
    match readCommand name rest with
    | .error interruption => .error interruption
    | .ok (behind, command) => .ok (combine before behind (some command))

/-- Reads the words of a command line. -/
def Request.parse (words : List Text) : Option Request :=
  match read words with
  | .ok invocation => some (.run invocation)
  | .error .version => some .version
  | .error .help => some .help
  | .error .usage => none

end Stencil.Cli
