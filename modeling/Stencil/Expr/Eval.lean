import Stencil.Expr.Filter
import Stencil.Expr.Tree

/-!
# Evaluation

`Expr.eval` computes the value of an expression from the values of the names in it. A name that is
not bound has no value, and neither has a part that a value does not have; to ask for a part of a
value that is missing is a failure. Operations are looked up by name after their operands have been
computed.

`Expr.evaluate` reads a source first. An `Evaluator` is anything that can stand in its place.
-/

namespace Stencil

abbrev Bindings := Text → Option Value

/-- Computes the value of an expression from its source. -/
abbrev Evaluator := Text → Bindings → Except Failure Value

namespace Expr

def part (value key : Value) : Except Failure Value :=
  match value.item? key with
  | some item => .ok item
  | none =>
    match value with
    | .undefined => .error .undefinedValue
    | _ => .ok .undefined

def applyPrefixed : Prefixed → Value → Except Failure Value
  | .negate, value => value.negate
  | .not, value => .ok (.bool !value.isTrue)

def applyInfixed (operator : Infixed) (a b : Value) : Except Failure Value :=
  match operator with
  | .or => .ok (if a.isTrue then a else b)
  | .and => .ok (if a.isTrue then b else a)
  | .equal => .ok (.bool (Value.equal a b))
  | .notEqual => .ok (.bool !(Value.equal a b))
  | .less => .ok (.bool (Value.order a b == .lt))
  | .lessEqual => .ok (.bool (Value.order a b != .gt))
  | .greater => .ok (.bool (Value.order a b == .gt))
  | .greaterEqual => .ok (.bool (Value.order a b != .lt))
  | .isIn => (a.isIn b).map .bool
  | .add => a.add b
  | .subtract => a.subtract b
  | .join => .ok (a.joined b)
  | .multiply => a.multiply b
  | .divide => a.divide b
  | .floorDivide => a.floorDivide b
  | .modulo => a.modulo b
  | .power => a.power b

/-- The first operand alone decides the value. -/
def decides : Infixed → Value → Bool
  | .or, a => a.isTrue
  | .and, a => !a.isTrue
  | _, _ => false

/-- Calls a function by name. A name that is bound to a value cannot be called. -/
def callFunction (bindings : Bindings) (name : Text) (args : Arguments) : Except Failure Value :=
  match bindings name, Function.find? name with
  | some _, _ => .error .invalidOperation
  | none, some function => function args
  | none, none => .error .unknownFunction

/-- Calls a method. Values have no methods; an entry of a map is not one either. -/
def callMethod (value : Value) (name : Text) : Except Failure Value :=
  match value with
  | .map entries =>
    if (Value.lookup (.ofText name) entries).isSome then .error .invalidOperation
    else .error .unknownMethod
  | _ => .error .unknownMethod

def applyFilter (name : Text) (value : Value) (args : Arguments) : Except Failure Value :=
  match Filter.find? name with
  | some found => found value args
  | none => .error .unknownFilter

def applyTest (name : Text) (value : Value) (args : Arguments) : Except Failure Value :=
  match Test.find? name with
  | some holds => if args.flat.isEmpty then .ok (.bool (holds value)) else .error .tooManyArguments
  | none => .error .unknownTest

mutual

def eval (bindings : Bindings) : Expr → Except Failure Value
  | .literal value => .ok value
  | .var name => .ok ((bindings name).getD .undefined)
  | .attribute target name => do part (← eval bindings target) (.ofText name)
  | .subscript target key => do
    let target ← eval bindings target
    part target (← eval bindings key)
  | .slice target start stop step => do
    let target ← eval bindings target
    let start ← evalOptional bindings start
    let stop ← evalOptional bindings stop
    let step ← evalOptional bindings step
    target.slice start stop step
  | .unary operator operand => do applyPrefixed operator (← eval bindings operand)
  | .binary operator left right => do
    let left ← eval bindings left
    if decides operator left then return left
    applyInfixed operator left (← eval bindings right)
  | .choice condition whenTrue whenFalse => do
    if (← eval bindings condition).isTrue then eval bindings whenTrue
    else match whenFalse with
      | some whenFalse => eval bindings whenFalse
      | none => return .undefined
  | .list items => do return .list (← evalAll bindings items)
  | .map entries => do return .ofEntries (← evalEntries bindings entries)
  | .call function args named => do
    let args ← evalAll bindings args
    callFunction bindings function ⟨args, ← evalNamed bindings named⟩
  | .method target name args named => do
    let target ← eval bindings target
    let _ ← evalAll bindings args
    let _ ← evalNamed bindings named
    callMethod target name
  | .callValue target args named => do
    let _ ← eval bindings target
    let _ ← evalAll bindings args
    let _ ← evalNamed bindings named
    throw .invalidOperation
  | .filter target name args named => do
    let target ← eval bindings target
    let args ← evalAll bindings args
    applyFilter name target ⟨args, ← evalNamed bindings named⟩
  | .test target name args named => do
    let target ← eval bindings target
    let args ← evalAll bindings args
    applyTest name target ⟨args, ← evalNamed bindings named⟩

def evalOptional (bindings : Bindings) : Option Expr → Except Failure Value
  | none => .ok .none
  | some expr => eval bindings expr

def evalAll (bindings : Bindings) : List Expr → Except Failure (List Value)
  | [] => .ok []
  | expr :: exprs => do
    let value ← eval bindings expr
    return value :: (← evalAll bindings exprs)

def evalNamed (bindings : Bindings) : List (Text × Expr) → Except Failure (List (Text × Value))
  | [] => .ok []
  | (name, expr) :: rest => do
    let value ← eval bindings expr
    return (name, value) :: (← evalNamed bindings rest)

/-- The values of the entries of a map, from left to right and a key before its value. -/
def evalEntries (bindings : Bindings) : List (Expr × Expr) → Except Failure (List (Value × Value))
  | [] => .ok []
  | (key, value) :: rest => do
    let key ← eval bindings key
    let value ← eval bindings value
    return (key, value) :: (← evalEntries bindings rest)

end

/-- The value of a source, which has to be an expression. -/
def evaluate : Evaluator := fun source bindings =>
  match read source with
  | .error failure => .error failure
  | .ok expr => expr.eval bindings

end Expr

end Stencil
