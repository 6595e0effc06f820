import Stencil.Data.Yaml.Token

/-!
# YAML nodes

`Node.ofTokens?` reads the one document of a stream. Aliases are replaced by what they stand for,
and tags are written out in full.
-/

namespace Stencil.Yaml

inductive Node
  | scalar (text : Text) (plain : Bool) (tag : Option Text)
  | list (items : List Node) (tag : Option Text)
  | map (entries : List (Node × Node)) (tag : Option Text)

def Node.empty : Node := .scalar [] true none

/-- The tokens that are left, and what is known from those before. -/
structure Source where
  tokens : List Token
  /-- The nodes that aliases can stand for, the last one first. -/
  anchors : List (Text × Node)
  /-- What the handles of tags stand for. -/
  handles : List (Text × Text)

namespace Source

def head? (s : Source) : Option Token := s.tokens.head?

def tail (s : Source) : Source := { s with tokens := s.tokens.tail }

def starts (s : Source) (tokens : List Token) : Bool := s.head?.any (· ∈ tokens)

/-- Keeps a node under its anchor. -/
def keep (s : Source) (anchor : Option Text) (node : Node) : Source :=
  match anchor with
  | some name => { s with anchors := (name, node) :: s.anchors }
  | none => s

def fullTag? (s : Source) (handle suffix : Text) : Option Text :=
  if handle.isEmpty then some suffix else (s.handles.lookup handle).map (· ++ suffix)

end Source

/-- The handles that need no directive. -/
def usualHandles : List (Text × Text) :=
  [(['!'], ['!']), ("!!".toList, "tag:yaml.org,2002:".toList)]

/-! ## Properties -/

structure Properties where
  anchor : Option Text
  tag : Option Text

namespace Properties

def any (p : Properties) : Bool := p.anchor.isSome || p.tag.isSome

/-- Reads an anchor and a tag, each at most once, in either order. -/
def read? : Nat → Properties → Source → Option (Properties × Source)
  | 0, p, s => some (p, s)
  | fuel + 1, p, s =>
    match s.head?, p.anchor, p.tag with
    | some (.anchor name), none, _ => read? fuel { p with anchor := some name } s.tail
    | some (.tag handle suffix), _, none => do
      let tag ← s.fullTag? handle suffix
      read? fuel { p with tag := some tag } s.tail
    | _, _, _ => some (p, s)

/-- A scalar with these properties. The tag of a single mark makes it plain. -/
def scalar (p : Properties) (text : Text) (plain : Bool) : Node :=
  if p.tag = some ['!'] then .scalar text plain none else .scalar text plain p.tag

end Properties

/-! ## Nodes -/

/-- Reads an item or a value unless one of some tokens shows that there is none. -/
def orEmpty (stops : List Token) (read : Source → Option (Node × Source)) (s : Source) :
    Option (Node × Source) :=
  if s.starts stops then some (.empty, s) else read s

mutual

/-- Reads a node. With `block` a block may start here, with `unindented` also a list whose dashes
are not indented. -/
def readNode? (fuel : Nat) (block unindented : Bool) (s : Source) : Option (Node × Source) :=
  match fuel with
  | 0 => none
  | fuel + 1 =>
    match s.head? with
    | some (.aliasOf name) => (s.anchors.lookup name).map fun node => (node, s.tail)
    | _ => do
      let (p, s) ← Properties.read? 2 ⟨none, none⟩ s
      let (node, s) ← readContent? fuel block unindented p s
      return (node, s.keep p.anchor node)

def readContent? (fuel : Nat) (block unindented : Bool) (p : Properties) (s : Source) :
    Option (Node × Source) :=
  match fuel with
  | 0 => none
  | fuel + 1 =>
    let list (items : List Node) : Node := .list items p.tag
    let map (entries : List (Node × Node)) : Node := .map entries p.tag
    match s.head?, block with
    | some .dash, _ =>
      if unindented then (readUnindented? fuel s).map fun (items, s) => (list items, s)
      else if p.any then some (.scalar [] true p.tag, s)
      else none
    | some (.scalar text plain), _ => some (p.scalar text plain, s.tail)
    | some .openList, _ => (readListItems? fuel true s.tail).map fun (items, s) => (list items, s)
    | some .openMap, _ =>
      (readMapEntries? fuel true s.tail).map fun (entries, s) => (map entries, s)
    | some .openBlockList, true => (readItems? fuel s.tail).map fun (items, s) => (list items, s)
    | some .openBlockMap, true =>
      (readEntries? fuel s.tail).map fun (entries, s) => (map entries, s)
    | _, _ => if p.any then some (.scalar [] true p.tag, s) else none

def readItems? (fuel : Nat) (s : Source) : Option (List Node × Source) :=
  match fuel with
  | 0 => none
  | fuel + 1 =>
    match s.head? with
    | some .dash => do
      let (item, s) ← orEmpty [.dash, .closeBlock] (readNode? fuel true false) s.tail
      let (items, s) ← readItems? fuel s
      return (item :: items, s)
    | some .closeBlock => some ([], s.tail)
    | _ => none

/-- Reads the items of a list whose dashes are not indented. -/
def readUnindented? (fuel : Nat) (s : Source) : Option (List Node × Source) :=
  match fuel with
  | 0 => none
  | fuel + 1 =>
    match s.head? with
    | some .dash => do
      let (item, s) ←
        orEmpty [.dash, .key, .value, .closeBlock] (readNode? fuel true false) s.tail
      let (items, s) ← readUnindented? fuel s
      return (item :: items, s)
    | _ => some ([], s)

def readEntries? (fuel : Nat) (s : Source) : Option (List (Node × Node) × Source) :=
  match fuel with
  | 0 => none
  | fuel + 1 =>
    match s.head? with
    | some .key => do
      let (key, s) ← orEmpty [.key, .value, .closeBlock] (readNode? fuel true true) s.tail
      let (value, s) ←
        if s.starts [.value] then
          orEmpty [.key, .value, .closeBlock] (readNode? fuel true true) s.tail
        else some (.empty, s)
      let (entries, s) ← readEntries? fuel s
      return ((key, value) :: entries, s)
    | some .closeBlock => some ([], s.tail)
    | _ => none

/-- Reads the items of a list in brackets up to its end. An item with a key is a map of one entry.
-/
def readListItems? (fuel : Nat) (first : Bool) (s : Source) : Option (List Node × Source) :=
  match fuel with
  | 0 => none
  | fuel + 1 =>
    if s.starts [.closeList] then some ([], s.tail)
    else if !first && !s.starts [.comma] then none
    else
      let s := if first then s else s.tail
      if s.starts [.closeList] then some ([], s.tail)
      else do
        let (item, s) ←
          if s.starts [.key] then
            (readPair? fuel .closeList s.tail).map fun (entry, s) => (.map [entry] none, s)
          else readNode? fuel false false s
        let (items, s) ← readListItems? fuel false s
        return (item :: items, s)

def readMapEntries? (fuel : Nat) (first : Bool) (s : Source) :
    Option (List (Node × Node) × Source) :=
  match fuel with
  | 0 => none
  | fuel + 1 =>
    if s.starts [.closeMap] then some ([], s.tail)
    else if !first && !s.starts [.comma] then none
    else
      let s := if first then s else s.tail
      if s.starts [.closeMap] then some ([], s.tail)
      else do
        let (entry, s) ←
          if s.starts [.key] then readPair? fuel .closeMap s.tail
          else (readNode? fuel false false s).map fun (key, s) => ((key, .empty), s)
        let (entries, s) ← readMapEntries? fuel false s
        return (entry :: entries, s)

/-- Reads a key and its value within brackets that end with a token. -/
def readPair? (fuel : Nat) (close : Token) (s : Source) : Option ((Node × Node) × Source) :=
  match fuel with
  | 0 => none
  | fuel + 1 => do
    let (key, s) ← orEmpty [.value, .comma, close] (readNode? fuel false false) s
    let (value, s) ←
      if s.starts [.value] then orEmpty [.comma, close] (readNode? fuel false false) s.tail
      else some (.empty, s)
    return ((key, value), s)

end

/-! ## Documents -/

/-- What directives say: whether there are any, and the handles that they declare. -/
def readDirectives? (version : Bool) (handles : List (Text × Text)) :
    List Token → Option (Bool × List (Text × Text) × List Token)
  | .version :: tokens => if version then none else readDirectives? true handles tokens
  | .tagHandle handle start :: tokens =>
    if (handles.lookup handle).isSome then none
    else readDirectives? version ((handle, start) :: handles) tokens
  | tokens => some (version || !handles.isEmpty, handles, tokens)

/-- Reads the document of a stream. A stream without a document is a node without content; one with
several is an error. -/
def Node.ofTokens? (tokens : List Token) : Option Node := do
  let (directives, handles, behind) ← readDirectives? false [] tokens
  if behind.isEmpty && !directives then return .empty
  let (explicit, content) :=
    match behind with
    | .documentStart :: content => (true, content)
    | content => (false, content)
  if directives && !explicit then none
  let source : Source := ⟨content, [], handles ++ usualHandles⟩
  let (node, s) ←
    if explicit && (content.isEmpty ||
      source.starts [.version, .documentStart, .documentEnd]) then some (Node.empty, source)
    else readNode? (4 * content.length + 4) true false source
  if s.tokens.all (· = .documentEnd) then return node else none

end Stencil.Yaml
