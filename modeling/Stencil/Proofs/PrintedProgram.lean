import Stencil.Proofs.RoundTrip

/-!
# Printing a program and reading it back

`Program.print` writes a program as artifact source and `parse` reads artifact source. Proved here:

* `splitText_sources`: texts and tags written one behind the other are cut apart where they were
  joined, and every tag gets the line that it starts on;
* `read_assignment`: code that assigns is read as the assignment, although it is tried as every
  other form first;
* `run_node` and `run_nodes`: on any stack of frames, the parts of a node add the node to the
  innermost frame;
* `parse_print`: so every canonical program is read back as it is.
-/

namespace Stencil.Artifact

open Template (Apart IsIdentifier IsTame callSource_noBlankLast loopSource push_append push_nil
  push_ne_nil read_call read_escaped read_loop read_shown splitText_piece splitText_tagged stopName)

/-! ## Canonical programs -/

/-- A text that can stand inside a tag. -/
structure InTag (text : Text) : Prop where
  trimmed : text.trim = text
  noEnd : ¬ tagClose <:+: text

instance (text : Text) : Decidable (InTag text) :=
  decidable_of_iff (text.trim = text ∧ ¬ tagClose <:+: text)
    ⟨fun ⟨a, b⟩ => ⟨a, b⟩, fun ⟨a, b⟩ => ⟨a, b⟩⟩

def startsWithText : List Node → Bool
  | .text _ :: _ => true
  | _ => false

mutual

/-- The source of the node says the node and nothing else. -/
def Node.Canonical : Node → Prop
  | .text text => text ≠ [] ∧ ¬ tagOpen <:+: text
  | .echo expr true => InTag expr ∧ (Text.splitTopLevel [')'] expr).length = 1
  | .echo expr false =>
    InTag expr ∧ expr ≠ [] ∧ callArguments? "escape".toList expr = none
  | .loop iterable binding body =>
    InTag iterable ∧ InTag binding ∧ ¬ " as ".toList <:+: ' ' :: binding ∧ AllCanonical body
  | .assign name expr =>
    isAssignable name = true ∧ InTag expr ∧ (Text.splitTopLevel [';', '\n'] expr).length = 1
  | .stopSection => True
  | .call _ args => InTag args ∧ (Text.splitTopLevel [')'] args).length = 1

/-- Every node is canonical, and no text is next to another. -/
def AllCanonical : List Node → Prop
  | [] => True
  | node :: nodes =>
    node.Canonical ∧ AllCanonical nodes ∧
      (startsWithText [node] = true → startsWithText nodes = false)

end

mutual

def Node.decidableCanonical : (node : Node) → Decidable node.Canonical
  | .text text => inferInstanceAs (Decidable (text ≠ [] ∧ ¬ tagOpen <:+: text))
  | .echo expr true =>
    inferInstanceAs (Decidable (InTag expr ∧ (Text.splitTopLevel [')'] expr).length = 1))
  | .echo expr false =>
    inferInstanceAs (Decidable (InTag expr ∧ expr ≠ [] ∧
      callArguments? "escape".toList expr = none))
  | .loop iterable binding body =>
    have := AllCanonical.decidable body
    inferInstanceAs (Decidable (InTag iterable ∧ InTag binding ∧
      ¬ " as ".toList <:+: ' ' :: binding ∧ AllCanonical body))
  | .assign name expr =>
    inferInstanceAs (Decidable (isAssignable name = true ∧ InTag expr ∧
      (Text.splitTopLevel [';', '\n'] expr).length = 1))
  | .stopSection => isTrue trivial
  | .call _ args =>
    inferInstanceAs (Decidable (InTag args ∧ (Text.splitTopLevel [')'] args).length = 1))

def AllCanonical.decidable : (nodes : List Node) → Decidable (AllCanonical nodes)
  | [] => isTrue trivial
  | node :: nodes =>
    have := node.decidableCanonical
    have := AllCanonical.decidable nodes
    inferInstanceAs (Decidable (node.Canonical ∧ AllCanonical nodes ∧
      (startsWithText [node] = true → startsWithText nodes = false)))

end

instance (nodes : List Node) : Decidable (AllCanonical nodes) := AllCanonical.decidable nodes

/-! ## Parts of a printed program -/

inductive SourcePart
  | text (text : Text)
  | tag (body : Text)

def SourcePart.isText : SourcePart → Bool
  | .text _ => true
  | .tag _ => false

def SourcePart.source : SourcePart → Text
  | .text t => t
  | .tag body => tagged body

/-- What a part is read as that starts on a line. -/
def SourcePart.chunk (line : Nat) : SourcePart → Chunk
  | .text t => .text t
  | .tag body => .tag (' ' :: body ++ [' ']) line

/-- No mark in the part that would end it. -/
def SourcePart.Closed : SourcePart → Prop
  | .text t => t ≠ [] ∧ ¬ tagOpen <:+: t
  | .tag body => Passes tagClose (' ' :: body ++ [' '])

def Alternating (parts : List SourcePart) : Prop :=
  parts.IsChain fun a b => ¬(a.isText = true ∧ b.isText = true)

/-- The chunks of parts, the first of which starts on a line. -/
def numbered (line : Nat) : List SourcePart → List Chunk
  | [] => []
  | part :: parts => part.chunk line :: numbered (line + part.source.count '\n') parts

theorem numbered_append (line : Nat) (front parts : List SourcePart) :
    ∃ next, numbered line (front ++ parts) = numbered line front ++ numbered next parts := by
  induction front generalizing line with
  | nil => exact ⟨line, rfl⟩
  | cons part front ih =>
    obtain ⟨next, hnext⟩ := ih (line + part.source.count '\n')
    exact ⟨next, by rw [List.cons_append, numbered, hnext, numbered, List.cons_append]⟩

def assignSource (name expr : Text) : Text := "let ".toList ++ name ++ " = ".toList ++ expr

mutual

def Node.parts : Node → List SourcePart
  | .text text => [.text text]
  | .echo expr true => [.tag ("echo ".toList ++ callSource "escape".toList expr)]
  | .echo expr false => [.tag ("echo ".toList ++ expr)]
  | .loop iterable binding body =>
    .tag (loopSource iterable binding) :: (partsAll body ++ [.tag "endforeach".toList])
  | .assign name expr => [.tag (assignSource name expr)]
  | .stopSection => [.tag (callSource stopName [])]
  | .call operation args => [.tag (callSource operation.name args)]

def partsAll : List Node → List SourcePart
  | [] => []
  | node :: nodes => node.parts ++ partsAll nodes

end

theorem loopSource_eq (iterable binding : Text) : loopSource iterable binding =
    "foreach (".toList ++ iterable ++ " as ".toList ++ binding ++ "):".toList := by
  delta loopSource
  simp only [List.append_assoc]
  rfl

theorem source_tag (body : Text) : [SourcePart.tag body].flatMap SourcePart.source = tagged body :=
  List.append_nil _

mutual

theorem Node.source_parts : ∀ node : Node, node.parts.flatMap SourcePart.source = node.print
  | .text _ => List.append_nil _
  | .echo _ true => source_tag _
  | .echo _ false => source_tag _
  | .loop iterable binding body => by
    rw [Node.parts, List.flatMap_cons, List.flatMap_append, source_partsAll body, source_tag,
      loopSource_eq, ← List.append_assoc]
    rfl
  | .assign _ _ => source_tag _
  | .stopSection => source_tag _
  | .call operation args => by
    rw [Node.parts, source_tag, callSource, Node.print, List.append_assoc, List.append_assoc,
      List.cons_append]
    rfl

theorem source_partsAll : ∀ nodes : List Node,
    (partsAll nodes).flatMap SourcePart.source = printAll nodes
  | [] => rfl
  | node :: nodes => by
    rw [partsAll, List.flatMap_append, node.source_parts, source_partsAll nodes, printAll]

end

/-! ## Cutting -/

/-- An opening mark that starts in a text without one would need more than what comes next. -/
theorem no_opening_before {text rest : Text} (h : ¬ tagOpen <:+: text)
    (hr : ∀ c, rest.head? = some c → c = '<') :
    ∀ a c b, text = a ++ c :: b → ¬ tagOpen <+: c :: b ++ rest :=
  not_prefix_of_absent '<' "?vm".toList (by decide) h hr

theorem count_tagged (body : Text) : (tagged body).count '\n' = body.count '\n' := by
  delta tagged
  rw [List.count_append, List.count_append]
  exact Nat.zero_add _

/-- Closed parts that alternate are cut apart where they were joined. -/
theorem splitText_sources {parts : List SourcePart} (closed : ∀ part ∈ parts, part.Closed)
    (apart : Alternating parts) (line : Nat) {done : Text}
    (hd : done = [] ∨ ∀ part, parts.head? = some part → part.isText = false) :
    splitText line done (marks (parts.flatMap SourcePart.source)) =
      .ok (consText done.reverse (numbered line parts)) := by
  induction parts generalizing line done with
  | nil => rfl
  | cons part parts ih =>
    have here := closed part List.mem_cons_self
    have rest := ih (fun p hp => closed p (List.mem_cons_of_mem _ hp)) apart.tail
    rw [List.flatMap_cons]
    cases part with
    | text t =>
      obtain ⟨hn, hopen⟩ : t ≠ [] ∧ ¬ tagOpen <:+: t := here
      have hdone : done = [] := by
        rcases hd with hd | hd
        · exact hd
        · have := hd _ rfl
          simp [SourcePart.isText] at this
      have next : ∀ p, parts.head? = some p → p.isText = false := by
        intro p hp
        cases parts with
        | nil => simp at hp
        | cons q parts =>
          obtain rfl : q = p := by simpa using hp
          simpa [SourcePart.isText] using (List.isChain_cons_cons.mp apart).1
      have mark : ∀ c, (parts.flatMap SourcePart.source).head? = some c → c = '<' := by
        intro c hc
        cases parts with
        | nil => simp at hc
        | cons q parts =>
          cases q with
          | text s => simpa [SourcePart.isText] using next _ rfl
          | tag body =>
            have first : ((tagged body) ++ parts.flatMap SourcePart.source).head? = some '<' := rfl
            rw [List.flatMap_cons, SourcePart.source, first] at hc
            simpa using hc.symm
      subst hdone
      rw [SourcePart.source, splitText_piece line [] (no_opening_before hopen mark), List.append_nil,
        rest _ (Or.inr next), List.reverse_reverse, numbered, SourcePart.chunk, SourcePart.source]
      simp [consText, hn]
    | tag body =>
      rw [SourcePart.source, splitText_tagged line done here, rest _ (Or.inl rfl),
        numbered, SourcePart.source, count_tagged]
      rfl

theorem Node.isText_head {node : Node} {part : SourcePart} (h : node.parts.head? = some part) :
    part.isText = startsWithText [node] := by
  cases node with
  | echo expr escape => cases escape <;> cases h <;> rfl
  | _ => cases h; rfl

theorem Node.isText_last {node : Node} {part : SourcePart} (h : node.parts.getLast? = some part) :
    part.isText = startsWithText [node] := by
  cases node with
  | echo expr escape => cases escape <;> cases h <;> rfl
  | loop iterable binding body =>
    rw [Node.parts, ← List.cons_append, List.getLast?_concat] at h
    cases h
    rfl
  | _ => cases h; rfl

theorem isText_head_partsAll {nodes : List Node} {part : SourcePart}
    (h : (partsAll nodes).head? = some part) : part.isText = startsWithText nodes := by
  cases nodes with
  | nil => simp [partsAll] at h
  | cons node nodes =>
    have ne : node.parts ≠ [] := by
      cases node with
      | echo expr escape => cases escape <;> exact List.cons_ne_nil _ _
      | _ => exact List.cons_ne_nil _ _
    rw [partsAll, List.head?_append_of_ne_nil _ ne] at h
    rw [Node.isText_head h]
    cases node <;> rfl

mutual

theorem Node.alternating_parts : ∀ {node : Node}, node.Canonical → Alternating node.parts
  | .text _, _ => List.isChain_singleton _
  | .echo _ true, _ => List.isChain_singleton _
  | .echo _ false, _ => List.isChain_singleton _
  | .assign _ _, _ => List.isChain_singleton _
  | .stopSection, _ => List.isChain_singleton _
  | .call _ _, _ => List.isChain_singleton _
  | .loop iterable binding body, h => by
    obtain ⟨-, -, -, rest⟩ := h
    unfold Node.parts
    refine List.isChain_cons.mpr ⟨fun part _ => by simp [SourcePart.isText], ?_⟩
    refine List.isChain_append.mpr ⟨alternating_partsAll rest, List.isChain_singleton _, ?_⟩
    intro _ _ part hpart
    obtain rfl : SourcePart.tag "endforeach".toList = part := by simpa using hpart
    simp [SourcePart.isText]

theorem alternating_partsAll : ∀ {nodes : List Node}, AllCanonical nodes →
    Alternating (partsAll nodes)
  | [], _ => List.isChain_nil
  | node :: nodes, h => by
    obtain ⟨canonical, rest, apart⟩ := h
    unfold partsAll
    refine List.isChain_append.mpr
      ⟨Node.alternating_parts canonical, alternating_partsAll rest, ?_⟩
    rintro a ha b hb ⟨left, right⟩
    have other := apart (Node.isText_last ha ▸ left)
    rw [← isText_head_partsAll hb, right] at other
    simp at other

end

/-- No tag ends in a text and the plain characters behind it. -/
theorem InTag.passes {text : Text} (h : InTag text) (plain : Text) (hn : plain ≠ [])
    (hm : '?' ∉ plain) (hc : '>' ∉ plain) : Passes tagClose (text ++ plain) :=
  .of_pair_append h.noEnd hn hm hc

theorem isAssignable_iff (name : Text) : isAssignable name = true ↔ IsIdentifier name := by
  constructor
  · intro h
    simp only [isAssignable, Bool.and_eq_true, Bool.not_eq_true', List.isEmpty_eq_false_iff,
      List.all_eq_true, Bool.or_eq_true, beq_iff_eq] at h
    exact ⟨h.1, h.2⟩
  · rintro ⟨hn, hl⟩
    simp only [isAssignable, Bool.and_eq_true, Bool.not_eq_true', List.isEmpty_eq_false_iff,
      List.all_eq_true, Bool.or_eq_true, beq_iff_eq]
    exact ⟨hn, hl⟩

/-- A call ends the tag neither in its name nor in its arguments. -/
theorem closed_callSource (word : Text) {args : Text} (hw : '?' ∉ word)
    (h : ¬ tagClose <:+: args) :
    SourcePart.Closed (.tag (callSource word args)) := by
  have plain : '?' ∉ ' ' :: word ++ ['('] := by simpa using hw
  have front : Passes tagClose (' ' :: word ++ ['(']) := .of_notMem plain
  have back : Passes tagClose (args ++ [')', ' ']) :=
    .of_pair_append h (List.cons_ne_nil _ _) (by decide) (by decide)
  have := front.append back
  simpa [SourcePart.Closed, callSource] using this

/-- Plain words in front of a text. -/
theorem closed_word {word text : Text} (hw : '?' ∉ word) (h : InTag text) :
    SourcePart.Closed (.tag (word ++ text)) := by
  have plain : '?' ∉ ' ' :: word := by simpa using hw
  have front : Passes tagClose (' ' :: word) := .of_notMem plain
  have back := h.passes [' '] (List.cons_ne_nil _ _) (by decide) (by decide)
  have := front.append back
  simpa [SourcePart.Closed] using this

theorem closed_loopSource {iterable binding : Text} (hi : InTag iterable) (hb : InTag binding) :
    SourcePart.Closed (.tag (loopSource iterable binding)) := by
  have front : Passes tagClose " foreach (".toList := .of_notMem (by decide)
  have middle := hi.passes " as ".toList (by decide) (by decide) (by decide)
  have back := hb.passes "): ".toList (by decide) (by decide) (by decide)
  have source : ' ' :: loopSource iterable binding ++ [' '] = " foreach (".toList ++
      ((iterable ++ " as ".toList) ++ (binding ++ "): ".toList)) := by
    rw [loopSource_eq]
    simp only [List.append_assoc, List.cons_append]
    rfl
  rw [SourcePart.Closed, source]
  exact front.append (middle.append back)

mutual

theorem Node.closed_parts : ∀ {node : Node}, node.Canonical → ∀ part ∈ node.parts, part.Closed
  | .text _, h => List.forall_mem_singleton.mpr h
  | .echo _ true, h => List.forall_mem_singleton.mpr <|
    closed_callSource "echo escape".toList (by decide) h.1.noEnd
  | .echo _ false, h => List.forall_mem_singleton.mpr (closed_word (by decide) h.1)
  | .assign name _, h => by
    have plain : '?' ∉ name :=
      ((isAssignable_iff name).mp h.1).tame.notMem (by decide)
    exact List.forall_mem_singleton.mpr <| closed_word (by simp [plain]) h.2.1
  | .stopSection, _ => List.forall_mem_singleton.mpr (closed_callSource _ (by decide) (by decide))
  | .call operation _, h => List.forall_mem_singleton.mpr <|
    closed_callSource _ (by cases operation <;> decide) h.1.noEnd
  | .loop _ _ body, h => by
    obtain ⟨hi, hb, -, rest⟩ := h
    have last : SourcePart.Closed (.tag "endforeach".toList) := .of_notMem (by decide)
    intro part hpart
    rcases List.mem_cons.mp hpart with rfl | hpart
    · exact closed_loopSource hi hb
    · rcases List.mem_append.mp hpart with hpart | hpart
      · exact closed_partsAll rest part hpart
      · exact List.forall_mem_singleton.mpr last part hpart

theorem closed_partsAll : ∀ {nodes : List Node}, AllCanonical nodes →
    ∀ part ∈ partsAll nodes, part.Closed
  | [], _ => by simp [partsAll]
  | node :: nodes, h => by
    obtain ⟨canonical, rest, -⟩ := h
    intro part hpart
    rcases List.mem_append.mp hpart with hpart | hpart
    · exact Node.closed_parts canonical part hpart
    · exact closed_partsAll rest part hpart

end

/-! ## Reading an assignment -/

theorem Statement.read_code {body : Text}
    (he : Text.dropStart? "echo ".toList body.trim = none)
    (hl : Text.dropStart? "foreach".toList body.trim = none)
    (hend : Text.dropEndWhile (· == ';') body.trim ≠ "endforeach".toList)
    (hn : callNode? body.trim = none) :
    Statement.read body = (readCode (Text.splitTopLevel [';', '\n'] body.trim)).map .nodes := by
  delta Statement.read
  simp only [he, hl, hend, hn, ↓reduceIte]

/-- Tame text in front of parts belongs to the first of them. -/
theorem length_split_tame {separators front : Text} (text : Text) (tame : IsTame front)
    (apart : ∀ c ∈ front, c ∉ separators) (depth : Nat) :
    (Scan.split separators (.plain depth) (front ++ text)).length =
      (Scan.split separators (.plain depth) text).length := by
  induction front with
  | nil => rfl
  | cons c front ih =>
    have step := (tame.step depth List.mem_cons_self).1
    have same : (Scan.plain depth).separates separators c = false := by
      have := apart c List.mem_cons_self
      simp [Scan.separates, this]
    rw [List.cons_append, Scan.split, same, step]
    simp only [Bool.false_eq_true, ↓reduceIte]
    rw [Text.length_consFirst _ (Scan.split_ne_nil _ _ _)]
    exact ih (fun d hd => tame d (List.mem_cons_of_mem _ hd))
      fun d hd => apart d (List.mem_cons_of_mem _ hd)

theorem cut?_append {c : Char} {before : Text} (h : c ∉ before) (after : Text) :
    Text.cut? [c] (before ++ c :: after) = some (before, after) :=
  Text.cut?_of_first fun a d b hd => Passes.of_notMem h a d b ([c] ++ after) hd

theorem dropEndWhile_prefix (p : Char → Bool) (text : Text) : Text.dropEndWhile p text <+: text := by
  have := List.reverse_prefix.mpr (List.dropWhile_suffix p (l := text.reverse))
  rwa [List.reverse_reverse] at this

/-- What stands behind the sign of an assignment, without the blanks at its end. -/
theorem trim_shown {expr : Text} (trimmed : expr.trim = expr) :
    Text.trim (Text.trimEnd (' ' :: expr)) = expr ∧
      (Text.trimEnd (' ' :: expr) = [] ∧ expr = [] ∨ Text.trimEnd (' ' :: expr) = ' ' :: expr) := by
  obtain ⟨hf, hl⟩ := Text.ends_of_trim_eq trimmed
  by_cases hn : expr = []
  · subst hn
    exact ⟨rfl, Or.inl ⟨rfl, rfl⟩⟩
  · have shown : Text.trimEnd (' ' :: expr) = ' ' :: expr := by
      refine Text.trimEnd_eq_self ?_
      exact hl.append (a := [' ']) fun he => absurd he hn
    rw [shown]
    refine ⟨?_, Or.inr rfl⟩
    have := Text.trim_between Text.allBlank_space .nil hf hl
    simpa using this

def assignHead (name : Text) : Text := "let ".toList ++ name ++ " =".toList

section AssignHead

variable {name : Text} (h : IsIdentifier name)
include h

theorem tame_assignHead : IsTame (assignHead name) :=
  .append (.append (by decide) h.tame) (by decide)

theorem separators_assignHead : ∀ c ∈ assignHead name, c ∉ [';', '\n'] := by
  have ends : ∀ c ∈ [';', '\n'], c ∉ "let ".toList ∧ c ∉ " =".toList := by decide
  have inside : ∀ c ∈ [';', '\n'], c ∉ name := by
    have special : ∀ c ∈ [';', '\n'], Text.isAlphanumeric c = false ∧ c ≠ '_' := by decide
    exact fun c hc => h.notMem (special c hc).1 (special c hc).2
  intro c hc hs
  rcases List.mem_append.mp hc with hc | hc
  · rcases List.mem_append.mp hc with hc | hc
    · exact (ends c hs).1 hc
    · exact inside c hs hc
  · exact (ends c hs).2 hc

omit h in
theorem assignHead_noBlankFirst (name rest : Text) :
    Text.NoBlankFirst (assignHead name ++ rest) :=
  Text.noBlankFirst_cons (by decide)

omit h in
theorem assignHead_noBlankLast (name : Text) : Text.NoBlankLast (assignHead name) := by
  have source : assignHead name = "let ".toList ++ name ++ [' '] ++ ['='] := by
    delta assignHead
    rw [List.append_assoc _ [' '] ['=']]
    rfl
  rw [source]
  exact Text.noBlankLast_concat (by decide)

theorem assignment?_assignHead (rest : Text) :
    assignment? (assignHead name ++ rest) = some (.assign name rest.trim) := by
  have source : assignHead name ++ rest =
      "let ".toList ++ ((name ++ [' ']) ++ '=' :: rest) := by
    delta assignHead
    simp only [List.append_assoc]
    rfl
  have sign : '=' ∉ name ++ [' '] := by
    have := h.notMem (c := '=') (by decide) (by decide)
    simp [this]
  have trimmed : Text.trim (name ++ [' ']) = name :=
    Text.trim_between .nil Text.allBlank_space h.ends.1 h.ends.2
  have assignable := (isAssignable_iff name).mpr h
  simp only [assignment?, source, Text.dropStart?_append, cut?_append sign, trimmed, assignable,
    Option.some_or, Option.bind_eq_bind, Option.bind_some, ↓reduceIte]

/-- Code that assigns is read as the assignment. -/
theorem readCode_assignHead {rest : Text} (last : rest.NoBlankLast) :
    readCode [assignHead name ++ rest] = .ok [.assign name rest.trim] := by
  have trimmed : Text.trim (assignHead name ++ rest) = assignHead name ++ rest :=
    Text.trim_eq_self (assignHead_noBlankFirst name rest)
      (last.append fun _ => assignHead_noBlankLast name)
  have nonempty : (assignHead name ++ rest).isEmpty = false := rfl
  simp only [readCode, trimmed, nonempty, assignment?_assignHead h, Bool.false_eq_true, ↓reduceIte]
  rfl

end AssignHead

/-- Code that assigns is no operation. -/
theorem callNode?_eq_none {statement : Text}
    (h : ∀ word, Apart word "let ".toList → ¬ word <+: statement) : callNode? statement = none := by
  have other (operation : Call) : callArguments? operation.name statement = none :=
    callArguments?_eq_none (h _ (by cases operation <;> decide))
  have stop : callArguments? stopName statement = none :=
    callArguments?_eq_none (h _ (by decide))
  rw [Template.callNode?_eq, stop]
  simp only [other, Option.map_none, Option.or_none]

/-- An assignment is tried as every other form and read as what it is. -/
theorem read_assignment {name expr : Text} (hname : isAssignable name = true)
    (trimmed : expr.trim = expr) (one : (Text.splitTopLevel [';', '\n'] expr).length = 1) :
    Statement.read (' ' :: assignSource name expr ++ [' ']) =
      .ok (.nodes [.assign name expr]) := by
  have identifier := (isAssignable_iff name).mp hname
  obtain ⟨htrim, hshown⟩ := trim_shown trimmed
  have body : Text.trim (' ' :: assignSource name expr ++ [' ']) =
      assignHead name ++ Text.trimEnd (' ' :: expr) := by
    have source : ' ' :: assignSource name expr ++ [' '] =
        [' '] ++ (assignHead name ++ (' ' :: expr ++ [' '])) := by
      delta assignSource assignHead
      simp only [List.append_assoc, List.cons_append]
      rfl
    rw [source, Text.trim, Text.trimStart_blanks_append Text.allBlank_space,
      Text.trimStart_eq_self (assignHead_noBlankFirst _ _), ← List.append_assoc,
      Text.trimEnd_append_blanks _ Text.allBlank_space,
      Text.trimEnd_append fun _ => assignHead_noBlankLast name]
  have parts : Text.splitTopLevel [';', '\n'] (assignHead name ++ Text.trimEnd (' ' :: expr)) =
      [assignHead name ++ Text.trimEnd (' ' :: expr)] := by
    refine Scan.split_eq_singleton _ ?_
    refine (length_split_tame _ (tame_assignHead identifier) (separators_assignHead identifier)
      0).trans ?_
    rcases hshown with ⟨hnil, -⟩ | hspace
    · rw [hnil]
      rfl
    · have space : IsTame [' '] := by decide
      rw [hspace]
      exact (length_split_tame expr space (by decide) 0).trans one
  have starts : ∀ word, Apart word "let ".toList →
      ¬ word <+: assignHead name ++ Text.trimEnd (' ' :: expr) := by
    intro word apart
    delta assignHead
    rw [List.append_assoc, List.append_assoc]
    exact apart.not_prefix_append _
  have noEnd : Text.dropEndWhile (· == ';') (assignHead name ++ Text.trimEnd (' ' :: expr)) ≠
      "endforeach".toList := by
    intro he
    exact starts "endforeach".toList (by decide) (he ▸ dropEndWhile_prefix _ _)
  rw [Statement.read_code, body, parts,
    readCode_assignHead identifier (Text.noBlankLast_trimEnd _), htrim]
  · rfl
  all_goals rw [body]
  · exact Text.dropStart?_eq_none (starts _ (by decide))
  · exact Text.dropStart?_eq_none (starts _ (by decide))
  · exact noEnd
  · exact callNode?_eq_none starts

/-! ## Reading back -/

theorem run_append (stack : Stack) (front chunks : List Chunk) :
    stack.run (front ++ chunks) = (stack.run front).bind fun next => next.run chunks := by
  induction front generalizing stack with
  | nil => rfl
  | cons chunk front ih =>
    rw [List.cons_append, Stack.run, Stack.run]
    cases stack.step chunk with
    | ok next => exact ih next
    | error malformed => rfl

/-- The last word of ` as ` would have to be in the binding. -/
theorem noAs_of_noAs {binding : Text} (h : ¬ " as ".toList <:+: ' ' :: binding) :
    ¬ " as ".toList <:+: "as ".toList ++ binding := by
  intro hi
  rcases List.infix_cons_iff.mp hi with hp | hi
  · exact absurd (List.cons_prefix_cons.mp hp).1 (by decide)
  · rcases List.infix_cons_iff.mp hi with hp | hi
    · exact absurd (List.cons_prefix_cons.mp hp).1 (by decide)
    · exact h hi

/-- A tag that says nodes adds them. -/
theorem run_tag {body : Text} {nodes : List Node}
    (h : Statement.read (' ' :: body ++ [' ']) = .ok (.nodes nodes)) (stack : Stack) (line : Nat) :
    stack.run (numbered line [.tag body]) = .ok (stack.push nodes) := by
  rw [numbered, numbered, SourcePart.chunk, Stack.run, Stack.step, h]
  rfl

mutual

/-- The parts of a node add the node to the innermost frame. -/
theorem run_node : ∀ {node : Node}, node.Canonical → ∀ {stack : Stack}, stack ≠ [] →
    ∀ line, stack.run (numbered line node.parts) = .ok (stack.push [node])
  | .text _, _, _, _, _ => rfl
  | .echo expr true, h, stack, _, line => by
    refine run_tag ?_ stack line
    rw [read_escaped h.1.trimmed, if_pos h.2]
  | .echo expr false, h, stack, _, line => by
    obtain ⟨tag, nonempty, raw⟩ := h
    obtain ⟨first, last⟩ := Text.ends_of_trim_eq tag.trimmed
    have node : echoNode expr = .echo expr false := by
      delta echoNode
      simp only [raw]
    exact run_tag (node ▸ read_shown first last nonempty) stack line
  | .assign name expr, h, stack, _, line =>
    run_tag (read_assignment h.1 h.2.1.trimmed h.2.2) stack line
  | .stopSection, _, stack, _, line => run_tag rfl stack line
  | .call operation args, h, stack, _, line => by
    have read := read_call h.2 operation
    rw [h.1.trimmed] at read
    exact run_tag read stack line
  | .loop iterable binding body, h, stack, hs, line => by
    obtain ⟨hi, hb, noAs, rest⟩ := h
    have start : Statement.read (' ' :: loopSource iterable binding ++ [' ']) =
        .ok (.startLoop iterable binding) :=
      read_loop hi.trimmed hb.trimmed (noAs_of_noAs noAs)
    have inner (next : Nat) := run_nodes rest
      (List.cons_ne_nil ⟨[], some ⟨iterable, binding, line⟩⟩ stack) next
    obtain ⟨frame, frames, rfl⟩ := List.exists_cons_of_ne_nil hs
    obtain ⟨next, hnext⟩ := numbered_append
      (line + (SourcePart.tag (loopSource iterable binding)).source.count '\n') (partsAll body)
      [.tag "endforeach".toList]
    rw [Node.parts, numbered, hnext, SourcePart.chunk, Stack.run, Stack.step, start]
    simp only
    rw [run_append, inner]
    rfl

/-- The parts of nodes add the nodes to the innermost frame. -/
theorem run_nodes : ∀ {nodes : List Node}, AllCanonical nodes → ∀ {stack : Stack}, stack ≠ [] →
    ∀ line, stack.run (numbered line (partsAll nodes)) = .ok (stack.push nodes)
  | [], _, stack, _, _ => by
    rw [push_nil]
    rfl
  | node :: nodes, h, stack, hs, line => by
    obtain ⟨canonical, rest, -⟩ := h
    obtain ⟨next, hnext⟩ := numbered_append line node.parts (partsAll nodes)
    rw [partsAll, hnext, run_append, run_node canonical hs]
    refine (run_nodes rest (push_ne_nil hs _) next).trans ?_
    rw [← push_append]
    rfl

end

/-- A canonical program is read back from its source as it is. -/
theorem parse_print {program : Program} (h : AllCanonical program) :
    parse program.print = .ok program := by
  have source : program.print = (partsAll program).flatMap SourcePart.source :=
    (source_partsAll program).symm
  have chunks : split program.print = .ok (numbered 1 (partsAll program)) := by
    rw [source]
    exact splitText_sources (closed_partsAll h) (alternating_partsAll h) 1 (Or.inl rfl)
  have run : Stack.initial.run (numbered 1 (partsAll program)) =
      .ok (Stack.initial.push program) := run_nodes h (List.cons_ne_nil _ _) 1
  rw [parse, chunks]
  simp only [run]
  rfl

def ledger : Program :=
  [.text "?> <?v\n<".toList,
    .loop "rows | pick(') as (')".toList "key, row".toList
      [.echo "row[\"a)b\"]".toList true,
        .loop "row as cells".toList "as".toList
          [.echo "escape(a) ~ escape(b)".toList false, .text " <?".toList,
            .assign "last_1".toList "f(1;\n2) ~ ';'".toList],
        .assign "x".toList [], .call .hook "'<?vm', [\n1, (2)]".toList],
    .call .content [], .stopSection]

theorem parse_print_ledger :
    AllCanonical ledger ∧ parse (Program.print ledger) = .ok ledger := by
  have canonical : AllCanonical ledger := by decide +kernel
  exact ⟨canonical, parse_print canonical⟩

end Stencil.Artifact
