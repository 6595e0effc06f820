import Stencil.Artifact.Node
import Stencil.Text.Brackets
import Stencil.Text.Letters

/-!
# Statements

What the body of a tag says: the start or the end of a loop, or nodes. `Statement.read` tries the
forms in a fixed order, an echo first and plain code last.
-/

namespace Stencil.Artifact

inductive Fault
  | unclosedTag
  | malformedLoop (statement : Text)
  | loopWithoutAs (header : Text)
  | unrecognized (code : Text)
  | strayEndLoop
  | unclosedLoop
  deriving DecidableEq, Repr

def Fault.message : Fault → Text
  | .unclosedTag => "`<?vm` is never closed with `?>`".toList
  | .malformedLoop statement => "malformed loop header `".toList ++ statement ++ "`".toList
  | .loopWithoutAs header => "loop header `".toList ++ header ++ "` is missing `as`".toList
  | .unrecognized code => "unrecognized statement `".toList ++ code ++ "`".toList
  | .strayEndLoop => "`endforeach` without a matching `foreach`".toList
  | .unclosedLoop => "`foreach` is never closed with `endforeach`".toList

/-- A tag that has been read. -/
inductive Statement
  | startLoop (iterable binding : Text)
  | endLoop
  | nodes (nodes : List Node)
  deriving Repr

/-- The text between the parentheses that start and end a text. -/
def unparenthesized? (text : Text) : Option Text := do
  let rest ← Text.dropStart? ['('] text
  Text.dropEnd? [')'] rest

/-- The trimmed arguments of a statement that is one call of `name`, with or without semicolons
behind it. A parenthesis that closes before the end means that it is not one call. -/
def callArguments? (name statement : Text) : Option Text := do
  let rest ← Text.dropStart? name statement
  let inner ← unparenthesized?
    (Text.trimEnd (Text.dropEndWhile (· == ';') (Text.trimEnd (Text.trimStart rest))))
  if (Text.splitTopLevel [')'] inner).length = 1 then some inner.trim else none

/-- The node of an echo with a trimmed expression. -/
def echoNode (expr : Text) : Node :=
  match callArguments? "escape".toList expr with
  | some inner => .echo inner true
  | none => .echo expr false

/-- The start of a loop, from a trimmed statement and its text behind the keyword. -/
def readLoop (statement header : Text) : Except Fault Statement :=
  match (Text.dropEnd? [':'] header.trim).bind fun header => unparenthesized? header.trimEnd with
  | none => .error (.malformedLoop statement)
  | some header =>
    match Text.cutLast? " as ".toList header with
    | none => .error (.loopWithoutAs header)
    | some (iterable, binding) => .ok (.startLoop iterable.trim binding.trim)

/-- The node of a statement that is one call of an operation. -/
def callNode? (statement : Text) : Option Node :=
  let node (operation : Call) : Option Node :=
    (callArguments? operation.name statement).map (.call operation)
  (node .extend).or <| (node .startSection).or <|
    ((callArguments? "layout.stop_section".toList statement).map fun _ => Node.stopSection).or <|
    (node .content).or <| (node .includeView).or <| (node .importView).or (node .hook)

def isAssignable (name : Text) : Bool :=
  !name.isEmpty && name.all fun c => Text.isAlphanumeric c || c == '_'

def assignment? (code : Text) : Option Node := do
  let rest ← (Text.dropStart? "let ".toList code).or (Text.dropStart? "set ".toList code)
  let (name, expr) ← Text.cut? ['='] rest
  if isAssignable name.trim then some (.assign name.trim expr.trim) else none

/-- The nodes of code parts, blank ones left out. -/
def readCode : List Text → Except Fault (List Node)
  | [] => .ok []
  | part :: parts =>
    if part.trim.isEmpty then readCode parts
    else match assignment? part.trim with
      | some node => (readCode parts).map (node :: ·)
      | none => .error (.unrecognized part.trim)

def Statement.read (body : Text) : Except Fault Statement :=
  let statement := body.trim
  match Text.dropStart? "echo ".toList statement with
  | some expr => .ok (.nodes [echoNode expr.trim])
  | none =>
    match Text.dropStart? "foreach".toList statement with
    | some header => readLoop statement header
    | none =>
      if Text.dropEndWhile (· == ';') statement = "endforeach".toList then .ok .endLoop
      else match callNode? statement with
        | some node => .ok (.nodes [node])
        | none => (readCode (Text.splitTopLevel [';', '\n'] statement)).map .nodes

end Stencil.Artifact
