import Stencil.Text.Basic

/-!
# Artifact programs

A program is a list of nodes: what a renderer does one after the other. Expressions are kept as
text. `print` writes a program as artifact source.
-/

namespace Stencil.Artifact

/-- The operations that are written as a call with arguments. -/
inductive Call
  /-- Names the parent layout. -/
  | extend
  /-- Opens a section. -/
  | startSection
  /-- Places the content of a section. -/
  | content
  /-- Renders another view here. -/
  | includeView
  /-- Renders another view into a variable. -/
  | importView
  /-- Calls the host. -/
  | hook
  deriving DecidableEq, Repr

def Call.name : Call → Text
  | .extend => "layout.extend".toList
  | .startSection => "layout.start_section".toList
  | .content => "layout.content".toList
  | .includeView => "layout.include".toList
  | .importView => "layout.import".toList
  | .hook => "hook".toList

def Call.all : List Call := [.extend, .startSection, .content, .includeView, .importView, .hook]

/-- One step of a program. -/
inductive Node
  /-- Writes text. -/
  | text (text : Text)
  /-- Writes a value, with its markup escaped or not. -/
  | echo (expr : Text) (escape : Bool)
  /-- Runs the body for every item. -/
  | loop (iterable binding : Text) (body : List Node)
  /-- Sets a variable. -/
  | assign (name expr : Text)
  /-- Closes the open section. -/
  | stopSection
  /-- Performs an operation. -/
  | call (operation : Call) (args : Text)
  deriving Repr

abbrev Program := List Node

/-- The source of a tag with a body. -/
def tagged (body : Text) : Text := "<?vm ".toList ++ body ++ " ?>".toList

mutual

def Node.print : Node → Text
  | .text text => text
  | .echo expr true => tagged ("echo escape(".toList ++ expr ++ ")".toList)
  | .echo expr false => tagged ("echo ".toList ++ expr)
  | .loop iterable binding body =>
    tagged ("foreach (".toList ++ iterable ++ " as ".toList ++ binding ++ "):".toList) ++
      printAll body ++ tagged "endforeach".toList
  | .assign name expr => tagged ("let ".toList ++ name ++ " = ".toList ++ expr)
  | .stopSection => tagged "layout.stop_section()".toList
  | .call operation args => tagged (operation.name ++ "(".toList ++ args ++ ")".toList)

def printAll : List Node → Text
  | [] => []
  | node :: nodes => node.print ++ printAll nodes

end

def Program.print (program : Program) : Text := printAll program

end Stencil.Artifact
