import Stencil.Artifact.Statement
import Stencil.Artifact.Tag

/-!
# Reading programs

Tags are read one after the other onto a stack of frames: a loop tag opens a frame, its end tag
closes the frame on top and puts the loop into the one below. The frame at the bottom is the
program.
-/

namespace Stencil.Artifact

/-- What is wrong with an artifact and on which line. -/
structure Malformed where
  line : Nat
  fault : Fault
  deriving DecidableEq, Repr

/-- The loop that a frame collects the body of. -/
structure LoopHeader where
  iterable : Text
  binding : Text
  line : Nat
  deriving DecidableEq, Repr

/-- Nodes that belong together, in order. -/
structure Frame where
  nodes : List Node
  /-- Nothing for the program itself. -/
  header : Option LoopHeader
  deriving Repr

/-- Open frames, the innermost first. -/
abbrev Stack := List Frame

namespace Stack

def initial : Stack := [⟨[], none⟩]

def push (nodes : List Node) : Stack → Stack
  | [] => []
  | frame :: frames => { frame with nodes := frame.nodes ++ nodes } :: frames

def closeLoop (line : Nat) : Stack → Except Malformed Stack
  | ⟨nodes, some header⟩ :: frame :: frames =>
    .ok (push [.loop header.iterable header.binding nodes] (frame :: frames))
  | _ => .error ⟨line, .strayEndLoop⟩

def step (stack : Stack) : Chunk → Except Malformed Stack
  | .text text => .ok (push [.text text] stack)
  | .tag body line =>
    match Statement.read body with
    | .error fault => .error ⟨line, fault⟩
    | .ok (.nodes nodes) => .ok (push nodes stack)
    | .ok (.startLoop iterable binding) => .ok (⟨[], some ⟨iterable, binding, line⟩⟩ :: stack)
    | .ok .endLoop => closeLoop line stack

def run : Stack → List Chunk → Except Malformed Stack
  | stack, [] => .ok stack
  | stack, chunk :: chunks =>
    match stack.step chunk with
    | .ok stack => run stack chunks
    | .error malformed => .error malformed

/-- The program, when no loop is open. -/
def finish : Stack → Except Malformed Program
  | [] => .ok []
  | [frame] => .ok frame.nodes
  | frame :: _ =>
    .error ⟨match frame.header with | some header => header.line | none => 0, .unclosedLoop⟩

end Stack

def parse (source : Text) : Except Malformed Program :=
  match split source with
  | .error line => .error ⟨line, .unclosedTag⟩
  | .ok chunks =>
    match Stack.initial.run chunks with
    | .ok stack => stack.finish
    | .error malformed => .error malformed

end Stencil.Artifact
