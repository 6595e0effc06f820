import Stencil.Proofs.LeftmostMatch
import Stencil.Proofs.PrintedProgram

/-!
# Loops that are open

The reader of programs keeps a frame for every loop whose end it has not come to. Which loops these
are can be said without a stack (`openLoops`): a loop is open when, looking back from the last chunk,
every loop end that is met has a start of its own behind that of the loop. Proved here:

* `run_cases`: the reader stops at the first tag that cannot be read and at the first loop end with no
  loop open, and at nothing else;
* `Stack.Arrived` and `Stack.Tracks`: up to there the frames above the program are the open loops, and
  the nodes in the frames, read depth first, are what the chunks say, in order;
* `programOf_cases`, `loops_nest`: so a program is made exactly when no loop end is without a loop and
  no loop is left open, and it holds every node of the chunks.
-/

namespace Stencil.Artifact

/-! ## What chunks say -/

/-- What a program says when it is read from its first character to its last. -/
inductive Event
  | startLoop (iterable binding : Text)
  | endLoop
  | node (node : Node)

mutual

/-- A node read depth first: a loop is its start, its body and its end. -/
def Node.events : Node → List Event
  | .loop iterable binding body => .startLoop iterable binding :: (eventsAll body ++ [.endLoop])
  | node => [.node node]

def eventsAll : List Node → List Event
  | [] => []
  | node :: nodes => node.events ++ eventsAll nodes

end

/-- What a statement says; no loop is among its nodes. -/
def Statement.events : Statement → List Event
  | .startLoop iterable binding => [.startLoop iterable binding]
  | .endLoop => [.endLoop]
  | .nodes said => said.map .node

namespace Chunk

def statement : Chunk → Except Fault Statement
  | .text t => .ok (.nodes [.text t])
  | .tag body _ => Statement.read body

def line : Chunk → Nat
  | .text _ => 0
  | .tag _ line => line

def events (chunk : Chunk) : List Event :=
  match chunk.statement with
  | .ok statement => statement.events
  | .error _ => []

def startsLoop (chunk : Chunk) : Bool :=
  match chunk.statement with
  | .ok (.startLoop _ _) => true
  | _ => false

def endsLoop (chunk : Chunk) : Bool :=
  match chunk.statement with
  | .ok .endLoop => true
  | _ => false

end Chunk

/-! ## Open loops -/

/-- The loops that are open behind chunks, the innermost first. The last chunk comes first; `ended`
loop ends have been met whose starts are still to come. -/
def openBefore (ended : Nat) : List Chunk → List LoopHeader
  | [] => []
  | chunk :: earlier =>
    match chunk.statement, ended with
    | .ok (.startLoop iterable binding), 0 =>
      ⟨iterable, binding, chunk.line⟩ :: openBefore 0 earlier
    | .ok (.startLoop _ _), ended + 1 => openBefore ended earlier
    | .ok .endLoop, ended => openBefore (ended + 1) earlier
    | _, ended => openBefore ended earlier

/-- The loops that chunks start and do not end, the innermost first. -/
def openLoops (chunks : List Chunk) : List LoopHeader := openBefore 0 chunks.reverse

/-- Every chunk can be read, and every loop end has an open loop before it. -/
structure Accepted (chunks : List Chunk) : Prop where
  readable : ∀ chunk ∈ chunks, ∃ statement, chunk.statement = .ok statement
  matched : ∀ before chunk after, chunks = before ++ chunk :: after →
    chunk.statement = .ok .endLoop → openLoops before ≠ []

/-- Behind accepted chunks, a chunk that cannot be read or that ends a loop where none is open. -/
inductive Refused (before : List Chunk) (chunk : Chunk) : Malformed → Prop
  | unreadable {fault : Fault} (h : chunk.statement = .error fault) :
      Refused before chunk ⟨chunk.line, fault⟩
  | stray (h : chunk.statement = .ok .endLoop) (outside : openLoops before = []) :
      Refused before chunk ⟨chunk.line, .strayEndLoop⟩

section Concat

variable {chunks : List Chunk} {chunk : Chunk}

/-- One more loop end closes the innermost loop. -/
theorem openBefore_succ (ended : Nat) (chunks : List Chunk) :
    openBefore (ended + 1) chunks = (openBefore ended chunks).tail := by
  induction chunks generalizing ended with
  | nil => rfl
  | cons chunk earlier ih =>
    cases hs : chunk.statement with
    | error fault => simp only [openBefore, hs, ih]
    | ok statement =>
      cases statement with
      | startLoop iterable binding => cases ended <;> simp only [openBefore, hs, ih, List.tail_cons]
      | endLoop => simp only [openBefore, hs, ih]
      | nodes nodes => simp only [openBefore, hs, ih]

theorem openLoops_startLoop {iterable binding : Text}
    (h : chunk.statement = .ok (.startLoop iterable binding)) :
    openLoops (chunks ++ [chunk]) = ⟨iterable, binding, chunk.line⟩ :: openLoops chunks := by
  simp only [openLoops, List.reverse_append, List.reverse_singleton, List.singleton_append,
    openBefore, h]

theorem openLoops_endLoop (h : chunk.statement = .ok .endLoop) :
    openLoops (chunks ++ [chunk]) = (openLoops chunks).tail := by
  simp only [openLoops, List.reverse_append, List.reverse_singleton, List.singleton_append,
    openBefore, h, openBefore_succ]

theorem openLoops_nodes {nodes : List Node} (h : chunk.statement = .ok (.nodes nodes)) :
    openLoops (chunks ++ [chunk]) = openLoops chunks := by
  simp only [openLoops, List.reverse_append, List.reverse_singleton, List.singleton_append,
    openBefore, h]

theorem events_concat {statement : Statement} (h : chunk.statement = .ok statement) :
    (chunks ++ [chunk]).flatMap Chunk.events = chunks.flatMap Chunk.events ++ statement.events := by
  simp only [List.flatMap_append, List.flatMap_singleton, Chunk.events, h]

theorem accepted_nil : Accepted [] where
  readable := by simp
  matched := by
    intro before chunk after h
    simp at h

theorem accepted_concat_iff : Accepted (chunks ++ [chunk]) ↔
    Accepted chunks ∧ (∃ statement, chunk.statement = .ok statement) ∧
      (chunk.statement = .ok .endLoop → openLoops chunks ≠ []) := by
  constructor
  · rintro ⟨readable, matched⟩
    refine ⟨⟨fun c hc => readable c (by simp [hc]), fun before c after h => ?_⟩,
      readable chunk (by simp), matched chunks chunk [] rfl⟩
    exact matched before c (after ++ [chunk]) (by simp [h])
  · rintro ⟨⟨readable, matched⟩, here, last⟩
    refine ⟨?_, fun before c after h => ?_⟩
    · intro c hc
      rcases List.mem_append.mp hc with hc | hc
      · exact readable c hc
      · obtain rfl := List.mem_singleton.mp hc
        exact here
    · rcases List.eq_nil_or_concat after with rfl | ⟨after, d, rfl⟩
      · obtain ⟨rfl, hd⟩ := List.append_inj' h rfl
        obtain rfl : chunk = c := by simpa using hd
        exact last
      · rw [List.concat_eq_append, ← List.cons_append, ← List.append_assoc] at h
        exact matched before c after (List.append_inj' h rfl).1

end Concat

/-! ## Statements without loops -/

theorem echoNode_eq (expr : Text) : ∃ inner escape, echoNode expr = .echo inner escape := by
  unfold echoNode
  split
  · exact ⟨_, true, rfl⟩
  · exact ⟨_, false, rfl⟩

theorem of_callNode? {statement : Text} {node : Node} (h : callNode? statement = some node) :
    (∃ operation args, node = .call operation args) ∨ node = .stopSection := by
  have one (operation : Call) {args : Option Text} (ha : args.map (.call operation) = some node) :
      ∃ operation args, node = .call operation args := by
    obtain ⟨args, -, rfl⟩ := Option.map_eq_some_iff.mp ha
    exact ⟨operation, args, rfl⟩
  rw [Template.callNode?_eq] at h
  simp only [Option.or_eq_some_iff] at h
  rcases h with h | ⟨-, h | ⟨-, h | ⟨-, h | ⟨-, h | ⟨-, h | ⟨-, h⟩⟩⟩⟩⟩⟩
  · exact Or.inl (one _ h)
  · exact Or.inl (one _ h)
  · obtain ⟨args, -, rfl⟩ := Option.map_eq_some_iff.mp h
    exact Or.inr rfl
  all_goals exact Or.inl (one _ h)

theorem of_assignment? {code : Text} {node : Node} (h : assignment? code = some node) :
    ∃ name expr, node = .assign name expr := by
  simp only [assignment?, Option.bind_eq_bind, Option.bind_eq_some_iff] at h
  obtain ⟨rest, -, ⟨name, expr⟩, -, h⟩ := h
  split at h
  · exact ⟨name.trim, expr.trim, (Option.some.inj h).symm⟩
  · cases h

/-- A node that is no loop is read as itself. -/
def Node.isFlat : Node → Bool
  | .loop _ _ _ => false
  | _ => true

theorem eventsAll_of_flat {nodes : List Node} (h : ∀ node ∈ nodes, node.isFlat = true) :
    eventsAll nodes = nodes.map .node := by
  induction nodes with
  | nil => rfl
  | cons node nodes ih =>
    obtain ⟨here, rest⟩ := List.forall_mem_cons.mp h
    have one : node.events = [.node node] := by
      cases node with
      | loop iterable binding body => cases here
      | _ => rfl
    rw [eventsAll, one, ih rest]
    rfl

theorem eventsAll_append (nodes others : List Node) :
    eventsAll (nodes ++ others) = eventsAll nodes ++ eventsAll others := by
  induction nodes with
  | nil => rfl
  | cons node nodes ih => rw [List.cons_append, eventsAll, eventsAll, ih, List.append_assoc]

theorem flat_of_readCode {parts : List Text} {nodes : List Node} (h : readCode parts = .ok nodes) :
    ∀ node ∈ nodes, node.isFlat = true := by
  induction parts generalizing nodes with
  | nil =>
    cases h
    simp
  | cons part parts ih =>
    rw [readCode] at h
    split at h
    · exact ih h
    · split at h
      · next node hn =>
        obtain ⟨rest, hr, rfl⟩ := exists_of_map_eq_ok h
        obtain ⟨name, expr, rfl⟩ := of_assignment? hn
        exact List.forall_mem_cons.mpr ⟨rfl, ih hr⟩
      · cases h

theorem flat_of_read {body : Text} {nodes : List Node}
    (h : Statement.read body = .ok (.nodes nodes)) : ∀ node ∈ nodes, node.isFlat = true := by
  delta Statement.read at h
  simp only at h
  split at h
  · cases h
    obtain ⟨inner, escape, hn⟩ := echoNode_eq _
    rw [hn]
    exact List.forall_mem_singleton.mpr rfl
  · split at h
    · delta readLoop at h
      split at h
      · cases h
      · split at h <;> cases h
    · split at h
      · cases h
      · split at h
        · next node hn =>
          cases h
          obtain ⟨operation, args, rfl⟩ | rfl := of_callNode? hn
          all_goals exact List.forall_mem_singleton.mpr rfl
        · obtain ⟨read, hr, he⟩ := exists_of_map_eq_ok h
          cases he
          exact flat_of_readCode hr

/-- A fault that a statement has by itself. -/
def Fault.OfStatement : Fault → Prop
  | .malformedLoop _ | .loopWithoutAs _ | .unrecognized _ => True
  | _ => False

theorem ofStatement_of_readCode {parts : List Text} {fault : Fault}
    (h : readCode parts = .error fault) : fault.OfStatement := by
  induction parts with
  | nil => cases h
  | cons part parts ih =>
    rw [readCode] at h
    split at h
    · exact ih h
    · split at h
      · exact ih (error_of_map_eq_error h)
      · cases h
        trivial

theorem ofStatement_of_read {body : Text} {fault : Fault}
    (h : Statement.read body = .error fault) : fault.OfStatement := by
  delta Statement.read at h
  simp only at h
  split at h
  · cases h
  · split at h
    · delta readLoop at h
      split at h
      · cases h
        trivial
      · split at h
        · cases h
          trivial
        · cases h
    · split at h
      · cases h
      · split at h
        · cases h
        · exact ofStatement_of_readCode (error_of_map_eq_error h)

theorem Chunk.flat_of_statement {chunk : Chunk} {nodes : List Node}
    (h : chunk.statement = .ok (.nodes nodes)) : ∀ node ∈ nodes, node.isFlat = true := by
  cases chunk with
  | text t =>
    cases h
    exact List.forall_mem_singleton.mpr rfl
  | tag body line => exact flat_of_read h

theorem Chunk.ofStatement {chunk : Chunk} {fault : Fault} (h : chunk.statement = .error fault) :
    fault.OfStatement := by
  cases chunk with
  | text t => cases h
  | tag body line => exact ofStatement_of_read h

/-! ## Frames -/

namespace Stack

/-- The frame at the bottom is the program, those above it are the open loops. -/
inductive Stands : Stack → List LoopHeader → Prop
  | program (nodes : List Node) : Stands [⟨nodes, none⟩] []
  | loop {stack : Stack} {headers : List LoopHeader} (nodes : List Node) (header : LoopHeader)
      (h : Stands stack headers) : Stands (⟨nodes, some header⟩ :: stack) (header :: headers)

/-- The nodes in the frames, read depth first from the bottom to the top. -/
def events : Stack → List Event
  | [] => []
  | frame :: below =>
    events below ++ (frame.header.toList.map fun header =>
      Event.startLoop header.iterable header.binding) ++ eventsAll frame.nodes

/-- A chunk is read by what it says. -/
theorem step_eq (stack : Stack) (chunk : Chunk) :
    stack.step chunk =
      match chunk.statement with
      | .error fault => .error ⟨chunk.line, fault⟩
      | .ok (.nodes nodes) => .ok (push nodes stack)
      | .ok (.startLoop iterable binding) =>
        .ok (⟨[], some ⟨iterable, binding, chunk.line⟩⟩ :: stack)
      | .ok .endLoop => closeLoop chunk.line stack := by
  cases chunk with
  | text t => rfl
  | tag body line => rfl

section Stands

variable {stack : Stack} {headers : List LoopHeader} (h : Stands stack headers)

include h

theorem Stands.exists_frames : ∃ frames nodes, stack = frames ++ [⟨nodes, none⟩] ∧
    frames.map Frame.header = headers.map some := by
  induction h with
  | program nodes => exact ⟨[], nodes, rfl, rfl⟩
  | loop nodes header _ ih =>
    obtain ⟨frames, root, rfl, same⟩ := ih
    exact ⟨⟨nodes, some header⟩ :: frames, root, rfl, by rw [List.map_cons, List.map_cons, same]⟩

theorem Stands.length : stack.length = headers.length + 1 := by
  induction h with
  | program => rfl
  | loop _ _ _ ih => rw [List.length_cons, List.length_cons, ih]

/-- Nodes are added to the frame on top, and none is lost. -/
theorem Stands.push (nodes : List Node) : Stands (stack.push nodes) headers ∧
    (stack.push nodes).events = stack.events ++ eventsAll nodes := by
  cases h with
  | program old =>
    refine ⟨.program _, ?_⟩
    simp [Stack.push, events, eventsAll_append]
  | loop old header below =>
    refine ⟨below.loop _ header, ?_⟩
    simp [Stack.push, events, eventsAll_append]

end Stands

/-- Outside loops a loop end is refused. -/
theorem Stands.closeLoop_outside {stack : Stack} (h : Stands stack []) (line : Nat) :
    stack.closeLoop line = .error ⟨line, .strayEndLoop⟩ := by
  cases h
  rfl

/-- At the end outside loops the frame that is left is the program. -/
theorem Stands.finish_outside {stack : Stack} (h : Stands stack []) :
    ∃ program, stack.finish = .ok program ∧ stack.events = eventsAll program := by
  cases h with
  | program nodes => exact ⟨nodes, rfl, rfl⟩

section Inside

variable {stack : Stack} {header : LoopHeader} {outer : List LoopHeader}
  (h : Stands stack (header :: outer))

include h

/-- A loop end closes the innermost loop, which goes whole into the frame below. -/
theorem Stands.closeLoop_inside (line : Nat) :
    ∃ next, stack.closeLoop line = .ok next ∧ Stands next outer ∧
      next.events = stack.events ++ [.endLoop] := by
  cases h with
  | @loop below _ nodes _ under =>
    obtain ⟨stands, events⟩ := under.push [.loop header.iterable header.binding nodes]
    have closed : Stack.closeLoop line (⟨nodes, some header⟩ :: below) =
        .ok (below.push [.loop header.iterable header.binding nodes]) := by
      cases under <;> rfl
    refine ⟨_, closed, stands, ?_⟩
    rw [events]
    simp [Stack.events, eventsAll, Node.events]

/-- At the end a loop that is open is an error on the line of the innermost one. -/
theorem Stands.finish_inside : stack.finish = .error ⟨header.line, .unclosedLoop⟩ := by
  cases h with
  | loop nodes header below => cases below <;> rfl

end Inside

/-! ## Runs -/

theorem run_concat (stack : Stack) (chunks : List Chunk) (chunk : Chunk) :
    stack.run (chunks ++ [chunk]) = (stack.run chunks).bind fun next => next.step chunk := by
  rw [run_append]
  cases stack.run chunks with
  | error malformed => rfl
  | ok next =>
    show next.run [chunk] = next.step chunk
    rw [run]
    cases next.step chunk <;> rfl

/-- What is known when the reader has come behind chunks. -/
structure Arrived (chunks : List Chunk) (stack : Stack) : Prop where
  run : initial.run chunks = .ok stack
  stands : Stands stack (openLoops chunks)
  events : stack.events = chunks.flatMap Chunk.events

theorem arrived_nil : Arrived [] initial where
  run := rfl
  stands := .program []
  events := rfl

/-- From where the reader has come it goes on with a chunk, unless the chunk is refused. -/
theorem Arrived.step {chunks : List Chunk} {stack : Stack} (h : Arrived chunks stack)
    (chunk : Chunk) :
    ((∃ statement, chunk.statement = .ok statement) ∧
      (chunk.statement = .ok .endLoop → openLoops chunks ≠ []) ∧
      ∃ next, Arrived (chunks ++ [chunk]) next) ∨
    ∃ malformed, Refused chunks chunk malformed ∧ stack.step chunk = .error malformed := by
  have behind {next : Stack} (hs : stack.step chunk = .ok next) :
      initial.run (chunks ++ [chunk]) = .ok next := by
    rw [run_concat, h.run]
    exact hs
  have step := stack.step_eq chunk
  cases hc : chunk.statement with
  | error fault =>
    rw [hc] at step
    exact Or.inr ⟨_, .unreadable hc, step⟩
  | ok statement =>
    rw [hc] at step
    cases statement with
    | nodes nodes =>
      obtain ⟨stands, events⟩ := h.stands.push nodes
      refine Or.inl ⟨⟨_, rfl⟩, by simp, _, behind step, ?_, ?_⟩
      · rwa [openLoops_nodes hc]
      · rw [events, h.events, events_concat hc, eventsAll_of_flat (Chunk.flat_of_statement hc)]
        rfl
    | startLoop iterable binding =>
      refine Or.inl ⟨⟨_, rfl⟩, by simp, _, behind step, ?_, ?_⟩
      · rw [openLoops_startLoop hc]
        exact h.stands.loop [] _
      · rw [events_concat hc, ← h.events]
        simp [Stack.events, eventsAll, Statement.events]
    | endLoop =>
      have stands := h.stands
      cases ho : openLoops chunks with
      | nil =>
        rw [ho] at stands
        exact Or.inr ⟨_, .stray hc ho, step.trans (stands.closeLoop_outside chunk.line)⟩
      | cons header outer =>
        rw [ho] at stands
        obtain ⟨next, closed, stands, events⟩ := stands.closeLoop_inside chunk.line
        refine Or.inl ⟨⟨_, rfl⟩, by simp, next, behind (step.trans closed), ?_, ?_⟩
        · rwa [openLoops_endLoop hc, ho]
        · rw [events, h.events, events_concat hc]
          rfl

/-- The reader comes behind the chunks when they are accepted, and else stops at the first chunk that
is refused. -/
theorem run_cases (chunks : List Chunk) :
    (Accepted chunks ∧ ∃ stack, Arrived chunks stack) ∨
      ∃ before chunk after malformed, chunks = before ++ chunk :: after ∧ Accepted before ∧
        Refused before chunk malformed ∧ initial.run chunks = .error malformed := by
  induction chunks using List.reverseRecOn with
  | nil => exact Or.inl ⟨accepted_nil, initial, arrived_nil⟩
  | append_singleton chunks chunk ih =>
    rcases ih with ⟨accepted, stack, arrived⟩ | ⟨before, c, after, malformed, rfl, accepted, refused, h⟩
    · rcases arrived.step chunk with ⟨readable, matched, next⟩ | ⟨malformed, refused, h⟩
      · exact Or.inl ⟨accepted_concat_iff.mpr ⟨accepted, readable, matched⟩, next⟩
      · refine Or.inr ⟨chunks, chunk, [], malformed, rfl, accepted, refused, ?_⟩
        rw [run_concat, arrived.run]
        exact h
    · refine Or.inr ⟨before, c, after ++ [chunk], malformed, by simp, accepted, refused, ?_⟩
      rw [run_concat, h]
      rfl

/-- What holds behind chunks that the reader has come through. -/
structure Tracks (stack : Stack) (chunks : List Chunk) : Prop where
  /-- The frame at the bottom is no loop, those above it are the open loops. -/
  frames : ∃ frames nodes, stack = frames ++ [⟨nodes, none⟩] ∧
    frames.map Frame.header = (openLoops chunks).map some
  /-- There is a frame for every loop start that has no loop end. -/
  counted : stack.length + chunks.countP Chunk.endsLoop = 1 + chunks.countP Chunk.startsLoop
  /-- The frames hold everything that the chunks say. -/
  complete : stack.events = chunks.flatMap Chunk.events
  /-- Nodes that are added are there. -/
  kept : ∀ nodes, (stack.push nodes).events = stack.events ++ eventsAll nodes
  /-- A loop can be closed as soon as there is a second frame. -/
  closes : ∀ line, (∃ next, stack.closeLoop line = .ok next) ↔ 2 ≤ stack.length
  /-- At the end only an open loop is an error, on its line. -/
  finishes : ∀ malformed, stack.finish = .error malformed ↔
    ∃ header outer, openLoops chunks = header :: outer ∧ malformed = ⟨header.line, .unclosedLoop⟩

theorem count_openLoops {chunks : List Chunk} (h : Accepted chunks) :
    (openLoops chunks).length + chunks.countP Chunk.endsLoop = chunks.countP Chunk.startsLoop := by
  induction chunks using List.reverseRecOn with
  | nil => rfl
  | append_singleton chunks chunk ih =>
    obtain ⟨before, ⟨statement, hs⟩, matched⟩ := accepted_concat_iff.mp h
    have counted := ih before
    rw [List.countP_append, List.countP_append, List.countP_singleton, List.countP_singleton]
    cases statement with
    | nodes nodes =>
      simp only [openLoops_nodes hs, Chunk.endsLoop, Chunk.startsLoop, hs]
      exact counted
    | startLoop iterable binding =>
      simp only [openLoops_startLoop hs, Chunk.endsLoop, Chunk.startsLoop, hs, List.length_cons,
        Bool.false_eq_true, ↓reduceIte]
      omega
    | endLoop =>
      have positive := List.length_pos_of_ne_nil (matched hs)
      simp only [openLoops_endLoop hs, Chunk.endsLoop, Chunk.startsLoop, hs, List.length_tail,
        Bool.false_eq_true, ↓reduceIte]
      omega

theorem Arrived.tracks {chunks : List Chunk} {stack : Stack} (h : Arrived chunks stack)
    (accepted : Accepted chunks) : stack.Tracks chunks where
  frames := h.stands.exists_frames
  counted := by
    have counted := count_openLoops accepted
    rw [h.stands.length]
    omega
  complete := h.events
  kept nodes := (h.stands.push nodes).2
  closes line := by
    have stands := h.stands
    rw [stands.length]
    cases ho : openLoops chunks with
    | nil =>
      rw [ho] at stands
      simp [stands.closeLoop_outside line]
    | cons header outer =>
      rw [ho] at stands
      obtain ⟨next, closed, -, -⟩ := stands.closeLoop_inside line
      simp [closed]
  finishes malformed := by
    have stands := h.stands
    cases ho : openLoops chunks with
    | nil =>
      rw [ho] at stands
      obtain ⟨program, finished, -⟩ := stands.finish_outside
      simp [finished]
    | cons header outer =>
      rw [ho] at stands
      rw [stands.finish_inside]
      constructor
      · intro h
        exact ⟨header, outer, rfl, (Except.error.inj h).symm⟩
      · rintro ⟨_, _, h, rfl⟩
        cases h
        rfl

theorem tracks_of_run {chunks : List Chunk} {stack : Stack}
    (h : initial.run chunks = .ok stack) : Accepted chunks ∧ Arrived chunks stack := by
  rcases run_cases chunks with ⟨accepted, other, arrived⟩ | ⟨_, _, _, _, -, -, -, failed⟩
  · obtain rfl : other = stack := Except.ok.inj (arrived.run.symm.trans h)
    exact ⟨accepted, arrived⟩
  · rw [h] at failed
    cases failed

end Stack

/-! ## Programs -/

/-- The program that chunks make. -/
def programOf (chunks : List Chunk) : Except Malformed Program :=
  (Stack.initial.run chunks).bind Stack.finish

theorem parse_of_split {source : Text} {chunks : List Chunk} (h : split source = .ok chunks) :
    parse source = programOf chunks := by
  rw [parse, h, programOf]
  cases hr : Stack.initial.run chunks with
  | ok stack => simp only [hr]; rfl
  | error malformed => simp only [hr]; rfl

/-- Chunks make a program, or they are accepted and a loop is left open, or one of them is refused. -/
theorem programOf_cases (chunks : List Chunk) :
    (Accepted chunks ∧ openLoops chunks = [] ∧ ∃ program, programOf chunks = .ok program ∧
      eventsAll program = chunks.flatMap Chunk.events) ∨
    (Accepted chunks ∧ ∃ header outer, openLoops chunks = header :: outer ∧
      programOf chunks = .error ⟨header.line, .unclosedLoop⟩) ∨
    ∃ before chunk after malformed, chunks = before ++ chunk :: after ∧ Accepted before ∧
      Refused before chunk malformed ∧ programOf chunks = .error malformed := by
  rcases Stack.run_cases chunks with ⟨accepted, stack, arrived⟩ |
    ⟨before, chunk, after, malformed, split, accepted, refused, failed⟩
  · have stands := arrived.stands
    have finished : programOf chunks = stack.finish := by
      rw [programOf, arrived.run]
      rfl
    cases ho : openLoops chunks with
    | nil =>
      rw [ho] at stands
      obtain ⟨program, done, events⟩ := stands.finish_outside
      exact Or.inl ⟨accepted, rfl, program, finished.trans done, events.symm.trans arrived.events⟩
    | cons header outer =>
      rw [ho] at stands
      exact Or.inr (Or.inl ⟨accepted, header, outer, rfl, finished.trans stands.finish_inside⟩)
  · refine Or.inr (Or.inr ⟨before, chunk, after, malformed, split, accepted, refused, ?_⟩)
    rw [programOf, failed]
    rfl

theorem Refused.not_accepted {before after : List Chunk} {chunk : Chunk} {malformed : Malformed}
    (h : Refused before chunk malformed) : ¬ Accepted (before ++ chunk :: after) := by
  intro accepted
  cases h with
  | unreadable hs =>
    obtain ⟨statement, hr⟩ := accepted.readable chunk (by simp)
    rw [hs] at hr
    cases hr
  | stray hs outside => exact accepted.matched before chunk after rfl hs outside

theorem Accepted.exists_arrived {chunks : List Chunk} (h : Accepted chunks) :
    ∃ stack, Stack.Arrived chunks stack := by
  rcases Stack.run_cases chunks with ⟨-, arrived⟩ | ⟨_, _, _, _, rfl, -, refused, -⟩
  · exact arrived
  · exact absurd h refused.not_accepted

theorem programOf_of_refused {before after : List Chunk} {chunk : Chunk} {malformed : Malformed}
    (accepted : Accepted before) (refused : Refused before chunk malformed) :
    programOf (before ++ chunk :: after) = .error malformed := by
  obtain ⟨stack, arrived⟩ := accepted.exists_arrived
  have stops : stack.step chunk = .error malformed := by
    have step := stack.step_eq chunk
    cases refused with
    | unreadable hs => rwa [hs] at step
    | stray hs outside =>
      have stands := arrived.stands
      rw [outside] at stands
      rw [hs] at step
      exact step.trans (stands.closeLoop_outside chunk.line)
  have run : Stack.initial.run (before ++ chunk :: after) = .error malformed := by
    rw [run_append, arrived.run]
    show stack.run (chunk :: after) = _
    rw [Stack.run, stops]
  rw [programOf, run]
  rfl

/-- The reader takes a loop end for a stray one exactly where no loop is open. -/
theorem programOf_eq_strayEndLoop_iff {chunks : List Chunk} {line : Nat} :
    programOf chunks = .error ⟨line, .strayEndLoop⟩ ↔
      ∃ before body after, chunks = before ++ .tag body line :: after ∧ Accepted before ∧
        Statement.read body = .ok .endLoop ∧ openLoops before = [] := by
  constructor
  · intro h
    rcases programOf_cases chunks with ⟨-, -, _, made, -⟩ | ⟨-, _, _, -, unclosed⟩ |
      ⟨before, chunk, after, malformed, rfl, accepted, refused, failed⟩
    · rw [made] at h
      cases h
    · rw [unclosed] at h
      cases h
    · rw [failed] at h
      cases h
      generalize hm : Malformed.mk line .strayEndLoop = malformed at refused
      cases refused with
      | unreadable hs =>
        obtain ⟨-, rfl⟩ := Malformed.mk.inj hm
        exact (Chunk.ofStatement hs).elim
      | stray hs outside =>
        obtain ⟨rfl, -⟩ := Malformed.mk.inj hm
        cases chunk with
        | text t => cases hs
        | tag body line => exact ⟨before, body, after, rfl, accepted, hs, outside⟩
  · rintro ⟨before, body, after, rfl, accepted, hs, outside⟩
    have refused : Refused before (.tag body line) ⟨line, .strayEndLoop⟩ := .stray hs outside
    exact programOf_of_refused accepted refused

/-- The reader misses a loop end exactly where a loop is open behind all chunks. -/
theorem programOf_eq_unclosedLoop_iff {chunks : List Chunk} {line : Nat} :
    programOf chunks = .error ⟨line, .unclosedLoop⟩ ↔
      Accepted chunks ∧ ∃ header outer, openLoops chunks = header :: outer ∧
        header.line = line := by
  rcases programOf_cases chunks with ⟨-, outside, _, made, -⟩ | ⟨accepted, header, outer, ho, failed⟩ |
    ⟨before, chunk, after, malformed, rfl, -, refused, failed⟩
  · rw [made, outside]
    simp
  · rw [failed, ho]
    simp [accepted]
  · rw [failed]
    constructor
    · intro h
      cases h
      generalize hm : Malformed.mk line .unclosedLoop = malformed at refused
      cases refused with
      | unreadable hs =>
        obtain ⟨-, rfl⟩ := Malformed.mk.inj hm
        exact (Chunk.ofStatement hs).elim
      | stray => cases hm
    · intro h
      exact absurd h.1 refused.not_accepted

theorem programOf_eq_ok {chunks : List Chunk} {program : Program}
    (h : programOf chunks = .ok program) : Accepted chunks ∧ openLoops chunks = [] ∧
      eventsAll program = chunks.flatMap Chunk.events := by
  rcases programOf_cases chunks with ⟨accepted, outside, other, made, events⟩ |
    ⟨-, _, _, -, failed⟩ | ⟨_, _, _, _, -, -, -, failed⟩
  · obtain rfl : other = program := Except.ok.inj (made.symm.trans h)
    exact ⟨accepted, outside, events⟩
  all_goals
    rw [h] at failed
    cases failed

theorem exists_programOf {chunks : List Chunk} (accepted : Accepted chunks)
    (outside : openLoops chunks = []) : ∃ program, programOf chunks = .ok program := by
  rcases programOf_cases chunks with ⟨-, -, program, made, -⟩ | ⟨-, _, _, inside, -⟩ |
    ⟨_, _, _, _, rfl, -, refused, -⟩
  · exact ⟨program, made⟩
  · rw [outside] at inside
    cases inside
  · exact absurd accepted refused.not_accepted

/-- As far as chunks can be read, there is a frame for the program and one for every open loop, and
what the chunks say is in the frames. The reader fails over loops exactly when a loop end has no open
loop before it, or when a loop is open at the end; that is reported on the line of the innermost one.
Otherwise, when every tag can be read, the chunks make a program, which says what the chunks say, in
order. -/
theorem loops_nest (chunks : List Chunk) :
    (∀ stack, Stack.initial.run chunks = .ok stack → stack.Tracks chunks) ∧
      (∀ source, split source = .ok chunks → parse source = programOf chunks) ∧
      (∀ line, programOf chunks = .error ⟨line, .strayEndLoop⟩ ↔
        ∃ before body after, chunks = before ++ .tag body line :: after ∧ Accepted before ∧
          Statement.read body = .ok .endLoop ∧ openLoops before = []) ∧
      (∀ line, programOf chunks = .error ⟨line, .unclosedLoop⟩ ↔
        Accepted chunks ∧ ∃ header outer, openLoops chunks = header :: outer ∧
          header.line = line) ∧
      ((∃ program, programOf chunks = .ok program) ↔
        Accepted chunks ∧ openLoops chunks = []) ∧
      ∀ program, programOf chunks = .ok program →
        eventsAll program = chunks.flatMap Chunk.events := by
  refine ⟨fun stack h => ?_, fun source h => parse_of_split h,
    fun line => programOf_eq_strayEndLoop_iff, fun line => programOf_eq_unclosedLoop_iff,
    ⟨?_, fun ⟨accepted, outside⟩ => exists_programOf accepted outside⟩,
    fun program h => (programOf_eq_ok h).2.2⟩
  · obtain ⟨accepted, arrived⟩ := Stack.tracks_of_run h
    exact arrived.tracks accepted
  · rintro ⟨program, h⟩
    obtain ⟨accepted, outside, -⟩ := programOf_eq_ok h
    exact ⟨accepted, outside⟩

def rowChunks : List Chunk :=
  [.text "a".toList, .tag " foreach (rows as row): ".toList 1,
    .tag " foreach (row as key, cell): ".toList 2, .tag " let x = 1; let y = f(;) ".toList 3,
    .tag " endforeach ".toList 4, .text "b".toList, .tag " endforeach; ".toList 5]

def rowProgram : Program :=
  [.text "a".toList, .loop "rows".toList "row".toList
    [.loop "row".toList "key, cell".toList
      [.assign "x".toList "1".toList, .assign "y".toList "f(;)".toList], .text "b".toList]]

/-- The chunks make a program; without the last one or the last three a loop is open, and with one
more loop end there is a stray one. -/
theorem loops_nest_rows :
    programOf rowChunks = .ok rowProgram ∧
      eventsAll rowProgram = rowChunks.flatMap Chunk.events ∧
      (∃ stack, Stack.initial.run (rowChunks.take 4) = .ok stack ∧
        stack.Tracks (rowChunks.take 4) ∧
        openLoops (rowChunks.take 4) = [⟨"row".toList, "key, cell".toList, 2⟩,
          ⟨"rows".toList, "row".toList, 1⟩]) ∧
      programOf (rowChunks.take 4) = .error ⟨2, .unclosedLoop⟩ ∧
      programOf (rowChunks.take 6) = .error ⟨1, .unclosedLoop⟩ ∧
      programOf (rowChunks ++ [.tag "endforeach".toList 6]) = .error ⟨6, .strayEndLoop⟩ := by
  have made : programOf rowChunks = .ok rowProgram := rfl
  obtain ⟨-, -, -, -, accepted, complete⟩ := loops_nest rowChunks
  obtain ⟨all, outside⟩ := accepted.mp ⟨_, made⟩
  obtain ⟨tracks, -⟩ := loops_nest (rowChunks.take 4)
  obtain ⟨stack, run⟩ : ∃ stack, Stack.initial.run (rowChunks.take 4) = .ok stack := ⟨_, rfl⟩
  obtain ⟨-, -, stray, -⟩ := loops_nest (rowChunks ++ [.tag "endforeach".toList 6])
  refine ⟨made, complete _ made, ⟨stack, run, tracks stack run, by decide +kernel⟩, rfl, rfl, ?_⟩
  exact (stray 6).mpr ⟨rowChunks, _, [], rfl, all, rfl, outside⟩

end Stencil.Artifact
