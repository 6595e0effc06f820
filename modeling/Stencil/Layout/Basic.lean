import Stencil.NameMap

/-!
# Layout

The state of one render: what has been written, which sections are open, and which regions they left
behind. Placeholders stay symbolic until the render ends, so a layout can place a region before the
section that fills it.

A template runs in a *pass* of its own. Passes nest when a view is rendered inside another; a pass
sees only the section that it opened itself. The templates of a chain of layouts run child first,
each one *layer* higher; a region that was filled on a lower layer is never replaced from a higher
one, and within a layer the last section of a name wins.
-/

namespace Stencil

inductive Fragment
  | text (text : Text)
  /-- Stands for the content of a region. -/
  | placeholder (region : Text)
  deriving DecidableEq, Repr

/-- Adds text at the end; text behind text becomes one fragment and empty text none. -/
def Fragment.pushText (text : Text) : List Fragment → List Fragment
  | [] => if text.isEmpty then [] else [.text text]
  | [.text last] => [.text (last ++ text)]
  | fragment :: rest => fragment :: pushText text rest

inductive Phase
  /-- Nothing has been declared. -/
  | idle
  /-- A parent layout has been declared. -/
  | parentDeclared
  /-- A section has been opened. -/
  | collecting
  /-- A template has ended and its sections are closed. -/
  | resolved
  /-- The output has been assembled. -/
  | done
  deriving DecidableEq, Repr

structure OpenSection where
  name : Text
  /-- The pass that opened it. -/
  pass : Nat
  body : List Fragment
  deriving DecidableEq, Repr

/-- What a closed section left behind. -/
structure Region where
  /-- The layer on which it was filled. -/
  layer : Nat
  body : List Fragment
  deriving DecidableEq, Repr

structure Layout where
  phase : Phase
  /-- The parent layout that the running template declared. -/
  parent : Option Text
  layer : Nat
  /-- What the running pass wrote outside sections. -/
  output : List Fragment
  /-- What the enclosing passes wrote, the innermost first. -/
  suspended : List (List Fragment)
  /-- Open sections, the innermost first. -/
  sections : List OpenSection
  regions : NameMap Region
  /-- The outputs of imported views by their aliases. -/
  imports : NameMap Text
  deriving DecidableEq, Repr

/-- The regions and the layer of an enclosing render, set aside while a nested view renders. -/
structure RegionScope where
  layer : Nat
  regions : NameMap Region
  deriving DecidableEq, Repr

namespace Layout

def initial : Layout := ⟨.idle, none, 0, [], [], [], .empty, .empty⟩

/-- The number of the running pass. -/
def pass (l : Layout) : Nat := l.suspended.length

/-! ## Parents and layers -/

/-- Declares the parent of the running template; a later declaration replaces an earlier one. -/
def declareParent (l : Layout) (view : Text) : Layout :=
  { l with parent := some view, phase := if l.phase = .idle then .parentDeclared else l.phase }

def setParent (l : Layout) (parent : Option Text) : Layout := { l with parent }

def setLayer (l : Layout) (layer : Nat) : Layout := { l with layer }

/-! ## Sections -/

/-- Keeps the body of a closed section, unless a lower layer filled the region before. -/
def settle (layer : Nat) (closed : OpenSection) (regions : NameMap Region) : NameMap Region :=
  match regions.find? closed.name with
  | some region =>
    if region.layer < layer then regions else regions.insert closed.name ⟨layer, closed.body⟩
  | none => regions.insert closed.name ⟨layer, closed.body⟩

/-- Closes the innermost section when the running pass opened it. -/
def closeSection (l : Layout) : Layout :=
  match l.sections with
  | top :: rest =>
    if top.pass = l.pass then
      { l with sections := rest, regions := settle l.layer top l.regions }
    else l
  | [] => l

/-- Opens a section. An open section of the same pass is closed first, so sections never nest. -/
def openSection (l : Layout) (name : Text) : Layout :=
  let closed := l.closeSection
  { closed with sections := ⟨name, l.pass, []⟩ :: closed.sections, phase := .collecting }

/-! ## Writing -/

/-- Changes what the running pass writes to: its open section, or else its output. -/
def writeWith (l : Layout) (add : List Fragment → List Fragment) : Layout :=
  match l.sections with
  | top :: rest =>
    if top.pass = l.pass then { l with sections := { top with body := add top.body } :: rest }
    else { l with output := add l.output }
  | [] => { l with output := add l.output }

def writeText (l : Layout) (text : Text) : Layout :=
  if text.isEmpty then l else l.writeWith (Fragment.pushText text)

def writePlaceholder (l : Layout) (name : Text) : Layout :=
  l.writeWith (· ++ [.placeholder name])

/-! ## Passes -/

def beginPass (l : Layout) : Layout := { l with output := [], suspended := l.output :: l.suspended }

/-- Closes sections from the innermost on for as long as they belong to a pass. -/
def closeWhile (pass layer : Nat) :
    List OpenSection → NameMap Region → List OpenSection × NameMap Region
  | [], regions => ([], regions)
  | top :: rest, regions =>
    if top.pass = pass then closeWhile pass layer rest (settle layer top regions)
    else (top :: rest, regions)

/-- Ends a pass: its open sections are closed and its output is handed over. -/
def endPass (l : Layout) : List Fragment × Layout :=
  let (sections, regions) := closeWhile l.pass l.layer l.sections l.regions
  (l.output,
    { l with
      sections, regions
      phase := if l.phase = .idle then .idle else .resolved
      output := l.suspended.headD []
      suspended := l.suspended.tail })

/-! ## Nested views -/

/-- Sets the regions aside, so that a nested view starts without any on layer zero. -/
def enterScope (l : Layout) : RegionScope × Layout :=
  (⟨l.layer, l.regions⟩, { l with layer := 0, regions := .empty })

/-- Drops the regions of a nested view for those that were set aside. -/
def leaveScope (l : Layout) (scope : RegionScope) : Layout :=
  { l with layer := scope.layer, regions := scope.regions }

def setImport (l : Layout) (name content : Text) : Layout :=
  { l with imports := l.imports.insert name content }

end Layout

end Stencil
