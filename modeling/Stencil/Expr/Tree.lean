import Stencil.Expr.Token
import Stencil.Expr.Value

/-!
# Expressions

The tree of an expression and how it is read from tokens. From the weakest operator to the
strongest: a choice, `or`, `and`, `not`, comparisons, sums, joins, products, powers, a minus sign,
and behind a value its attributes, items and calls, then its filters and tests. Operators of one
strength are read from left to right.

`read` accepts nesting up to a fixed depth, so that every tree is small enough to be walked.
-/

namespace Stencil

namespace Expr

inductive Prefixed
  | negate
  | not
  deriving DecidableEq, Repr

inductive Infixed
  | or
  | and
  | equal
  | notEqual
  | less
  | lessEqual
  | greater
  | greaterEqual
  | isIn
  | add
  | subtract
  | join
  | multiply
  | divide
  | floorDivide
  | modulo
  | power
  deriving DecidableEq, Repr

end Expr

/-- An expression. Arguments of calls are given by position or by name. -/
inductive Expr
  | literal (value : Value)
  | var (name : Text)
  | attribute (target : Expr) (name : Text)
  | subscript (target key : Expr)
  | slice (target : Expr) (start stop step : Option Expr)
  | unary (operator : Expr.Prefixed) (operand : Expr)
  | binary (operator : Expr.Infixed) (left right : Expr)
  | choice (condition whenTrue : Expr) (whenFalse : Option Expr)
  | list (items : List Expr)
  | map (entries : List (Expr × Expr))
  | call (function : Text) (args : List Expr) (named : List (Text × Expr))
  | method (target : Expr) (name : Text) (args : List Expr) (named : List (Text × Expr))
  | callValue (target : Expr) (args : List Expr) (named : List (Text × Expr))
  | filter (target : Expr) (name : Text) (args : List Expr) (named : List (Text × Expr))
  | test (target : Expr) (name : Text) (args : List Expr) (named : List (Text × Expr))

namespace Expr

/-! ## Operators by strength -/

/-- The strengths of operators that are read from left to right, the weakest first; between the
first two and the rest stands `not`. -/
inductive Level
  | or
  | and
  | sum
  | join
  | product
  | power
  deriving DecidableEq, Repr

/-- The operator of a strength that a token writes. -/
def Level.operator? : Level → Token → Option Infixed
  | .or, .name name => if name = "or".toList then some .or else none
  | .and, .name name => if name = "and".toList then some .and else none
  | .sum, .mark .plus => some .add
  | .sum, .mark .minus => some .subtract
  | .join, .mark .tilde => some .join
  | .product, .mark .times => some .multiply
  | .product, .mark .divide => some .divide
  | .product, .mark .floorDivide => some .floorDivide
  | .product, .mark .modulo => some .modulo
  | .power, .mark .power => some .power
  | _, _ => none

def comparison? : Token → Option Infixed
  | .mark .equal => some .equal
  | .mark .notEqual => some .notEqual
  | .mark .less => some .less
  | .mark .lessEqual => some .lessEqual
  | .mark .greater => some .greater
  | .mark .greaterEqual => some .greaterEqual
  | .name name => if name = "in".toList then some .isIn else none
  | _ => none

/-! ## Reading -/

/-- What is read and the tokens behind it. -/
abbrev Read (α : Type) := Except Failure (α × List Token)

/-- The failure of a token that does not belong where it stands. -/
def unexpected : List Token → Failure
  | .fault failure :: _ => failure
  | _ => .malformed

def expect (mark : Mark) : List Token → Except Failure (List Token)
  | .mark other :: rest => if other = mark then .ok rest else .error .malformed
  | rest => .error (unexpected rest)

def expectName : List Token → Read Text
  | .name name :: rest => .ok (name, rest)
  | rest => .error (unexpected rest)

def startsWith (mark : Mark) : List Token → Bool
  | .mark other :: _ => other = mark
  | _ => false

def startsWithName (name : Text) : List Token → Bool
  | .name other :: _ => other = name
  | _ => false

/-- The value of a name that is a literal. -/
def literalName? (name : Text) : Option Value :=
  if name = "true".toList ∨ name = "True".toList then some (.bool true)
  else if name = "false".toList ∨ name = "False".toList then some (.bool false)
  else if name = "none".toList ∨ name = "None".toList then some .none
  else none

/-- A token that can open the argument of a test that is written without parentheses. -/
def opensArgument : List Token → Bool
  | .name name :: _ =>
    !(["and".toList, "or".toList, "else".toList, "is".toList].contains name)
  | .text _ :: _ | .int _ :: _ | .float _ :: _ => true
  | .mark mark :: _ => mark ∈ [Mark.plus, .minus, .openBracket, .openBrace]
  | _ => false

def callOf (target : Expr) (args : List Expr) (named : List (Text × Expr)) : Expr :=
  match target with
  | .var function => .call function args named
  | .attribute target name => .method target name args named
  | target => .callValue target args named

/-- The greatest depth of nesting; an expression and a value in it count one each. -/
def maxDepth : Nat := 150

mutual

/-- Reads an expression, with `room` more levels of nesting. -/
def readExpr (fuel room : Nat) (tokens : List Token) : Read Expr :=
  match fuel, room with
  | 0, _ | _, 0 => .error .malformed
  | fuel + 1, room + 1 => readChoice fuel room tokens

def readChoice (fuel room : Nat) (tokens : List Token) : Read Expr :=
  match fuel with
  | 0 => .error .malformed
  | fuel + 1 =>
    match readLevel fuel room .or tokens with
    | .error failure => .error failure
    | .ok (first, rest) => readChoiceTail fuel room first rest

/-- Reads the conditions behind the first part of a choice. -/
def readChoiceTail (fuel room : Nat) (whenTrue : Expr) (tokens : List Token) : Read Expr :=
  match fuel with
  | 0 => .error .malformed
  | fuel + 1 =>
    if startsWithName "if".toList tokens then
      match readLevel fuel room .or tokens.tail with
      | .error failure => .error failure
      | .ok (condition, rest) =>
        if startsWithName "else".toList rest then
          match readChoice fuel room rest.tail with
          | .error failure => .error failure
          | .ok (whenFalse, rest) =>
            readChoiceTail fuel room (.choice condition whenTrue (some whenFalse)) rest
        else readChoiceTail fuel room (.choice condition whenTrue none) rest
    else .ok (whenTrue, tokens)

def readOperand (fuel room : Nat) (level : Level) (tokens : List Token) : Read Expr :=
  match fuel with
  | 0 => .error .malformed
  | fuel + 1 =>
    match level with
    | .or => readLevel fuel room .and tokens
    | .and => readNot fuel room tokens
    | .sum => readLevel fuel room .join tokens
    | .join => readLevel fuel room .product tokens
    | .product => readLevel fuel room .power tokens
    | .power => readUnary fuel room tokens

/-- Reads operands with operators of a strength between them. -/
def readLevel (fuel room : Nat) (level : Level) (tokens : List Token) : Read Expr :=
  match fuel with
  | 0 => .error .malformed
  | fuel + 1 =>
    match readOperand fuel room level tokens with
    | .error failure => .error failure
    | .ok (left, rest) => readLevelTail fuel room level left rest

def readLevelTail (fuel room : Nat) (level : Level) (left : Expr) (tokens : List Token) :
    Read Expr :=
  match fuel with
  | 0 => .error .malformed
  | fuel + 1 =>
    match tokens.head?.bind level.operator? with
    | none => .ok (left, tokens)
    | some operator =>
      match readOperand fuel room level tokens.tail with
      | .error failure => .error failure
      | .ok (right, rest) => readLevelTail fuel room level (.binary operator left right) rest

def readNot (fuel room : Nat) (tokens : List Token) : Read Expr :=
  match fuel with
  | 0 => .error .malformed
  | fuel + 1 =>
    if startsWithName "not".toList tokens then
      match readNot fuel room tokens.tail with
      | .error failure => .error failure
      | .ok (operand, rest) => .ok (.unary .not operand, rest)
    else
      match readLevel fuel room .sum tokens with
      | .error failure => .error failure
      | .ok (left, rest) => readComparisons fuel room left rest

def readComparisons (fuel room : Nat) (left : Expr) (tokens : List Token) : Read Expr :=
  match fuel with
  | 0 => .error .malformed
  | fuel + 1 =>
    if startsWithName "not".toList tokens then
      if startsWithName "in".toList tokens.tail then
        match readLevel fuel room .sum tokens.tail.tail with
        | .error failure => .error failure
        | .ok (right, rest) =>
          readComparisons fuel room (.unary .not (.binary .isIn left right)) rest
      else .error (unexpected tokens.tail)
    else
      match tokens.head?.bind comparison? with
      | none => .ok (left, tokens)
      | some operator =>
        match readLevel fuel room .sum tokens.tail with
        | .error failure => .error failure
        | .ok (right, rest) => readComparisons fuel room (.binary operator left right) rest

/-- Reads a value with what stands behind it. A minus sign belongs to the value alone. -/
def readUnary (fuel room : Nat) (tokens : List Token) : Read Expr :=
  match fuel with
  | 0 => .error .malformed
  | fuel + 1 =>
    match readTarget fuel room tokens with
    | .error failure => .error failure
    | .ok (target, rest) => readFilters fuel room target rest

def readTarget (fuel room : Nat) (tokens : List Token) : Read Expr :=
  match fuel with
  | 0 => .error .malformed
  | fuel + 1 =>
    match readSigned fuel room tokens with
    | .error failure => .error failure
    | .ok (target, rest) => readParts fuel room target rest

def readSigned (fuel room : Nat) (tokens : List Token) : Read Expr :=
  match fuel with
  | 0 => .error .malformed
  | fuel + 1 =>
    if startsWith .minus tokens then
      match readSigned fuel room tokens.tail with
      | .error failure => .error failure
      | .ok (operand, rest) => .ok (.unary .negate operand, rest)
    else readPrimary fuel room tokens

/-- Reads the attributes, items and calls behind a value. -/
def readParts (fuel room : Nat) (target : Expr) (tokens : List Token) : Read Expr :=
  match fuel with
  | 0 => .error .malformed
  | fuel + 1 =>
    match tokens with
    | .mark .dot :: rest =>
      match expectName rest with
      | .error failure => .error failure
      | .ok (name, rest) => readParts fuel room (.attribute target name) rest
    | .mark .openBracket :: rest =>
      match readSubscript fuel room target rest with
      | .error failure => .error failure
      | .ok (target, rest) => readParts fuel room target rest
    | .mark .openParen :: rest =>
      match readArguments fuel room rest with
      | .error failure => .error failure
      | .ok ((args, named), rest) => readParts fuel room (callOf target args named) rest
    | rest => .ok (target, rest)

/-- Reads an item or a slice behind its opening bracket. -/
def readSubscript (fuel room : Nat) (target : Expr) (tokens : List Token) : Read Expr :=
  match fuel with
  | 0 => .error .malformed
  | fuel + 1 =>
    match readOptional fuel room [.colon] tokens with
    | .error failure => .error failure
    | .ok (start, rest) =>
      if startsWith .colon rest then
        match readOptional fuel room [.closeBracket, .colon] rest.tail with
        | .error failure => .error failure
        | .ok (stop, rest) =>
          let step :=
            if startsWith .colon rest then readOptional fuel room [.closeBracket] rest.tail
            else .ok (none, rest)
          match step with
          | .error failure => .error failure
          | .ok (step, rest) =>
            (expect .closeBracket rest).map fun rest => (.slice target start stop step, rest)
      else
        match start with
        | some key => (expect .closeBracket rest).map fun rest => (.subscript target key, rest)
        | none => .error (unexpected rest)

/-- Reads an expression unless one of some marks stands in its place. -/
def readOptional (fuel room : Nat) (stops : List Mark) (tokens : List Token) : Read (Option Expr) :=
  match fuel with
  | 0 => .error .malformed
  | fuel + 1 =>
    if stops.any fun mark => startsWith mark tokens then .ok (none, tokens)
    else (readExpr fuel room tokens).map fun (expr, rest) => (some expr, rest)

def readArguments (fuel room : Nat) (tokens : List Token) :
    Read (List Expr × List (Text × Expr)) :=
  match fuel with
  | 0 => .error .malformed
  | fuel + 1 =>
    match tokens with
    | .mark .closeParen :: rest => .ok (([], []), rest)
    | tokens =>
      match readArgument fuel room tokens with
      | .error failure => .error failure
      | .ok ((name, value), rest) =>
        let others :=
          if startsWith .comma rest then readArguments fuel room rest.tail
          else (expect .closeParen rest).map fun rest => (([], []), rest)
        match others with
        | .error failure => .error failure
        | .ok ((args, named), rest) =>
          match name with
          | some name =>
            if args.isEmpty then .ok (([], (name, value) :: named), rest) else .error .malformed
          | none => .ok ((value :: args, named), rest)

/-- Reads one argument and the name that it is given by. -/
def readArgument (fuel room : Nat) (tokens : List Token) : Read (Option Text × Expr) :=
  match fuel with
  | 0 => .error .malformed
  | fuel + 1 =>
    match readExpr fuel room tokens with
    | .error failure => .error failure
    | .ok (.var name, .mark .assign :: rest) =>
      (readLevel fuel room .or rest).map fun (value, rest) => ((some name, value), rest)
    | .ok (value, rest) => .ok ((none, value), rest)

def readFilters (fuel room : Nat) (target : Expr) (tokens : List Token) : Read Expr :=
  match fuel with
  | 0 => .error .malformed
  | fuel + 1 =>
    if startsWith .pipe tokens then
      match expectName tokens.tail with
      | .error failure => .error failure
      | .ok (name, rest) =>
        let args :=
          if startsWith .openParen rest then readArguments fuel room rest.tail
          else .ok (([], []), rest)
        match args with
        | .error failure => .error failure
        | .ok ((args, named), rest) => readFilters fuel room (.filter target name args named) rest
    else if startsWithName "is".toList tokens then
      let negated := startsWithName "not".toList tokens.tail
      match expectName (if negated then tokens.tail.tail else tokens.tail) with
      | .error failure => .error failure
      | .ok (name, rest) =>
        let args :=
          if startsWith .openParen rest then readArguments fuel room rest.tail
          else if opensArgument rest then
            (readTarget fuel room rest).map fun (arg, rest) => (([arg], []), rest)
          else .ok (([], []), rest)
        match args with
        | .error failure => .error failure
        | .ok ((args, named), rest) =>
          let test := Expr.test target name args named
          readFilters fuel room (if negated then .unary .not test else test) rest
    else .ok (target, tokens)

def readPrimary (fuel room : Nat) (tokens : List Token) : Read Expr :=
  match fuel, room with
  | 0, _ | _, 0 => .error .malformed
  | fuel + 1, room + 1 =>
    match tokens with
    | .name name :: rest => .ok (((literalName? name).map .literal).getD (.var name), rest)
    | .text value :: rest => .ok (.literal (.ofText value), rest)
    | .int value :: rest => .ok (.literal (.int value), rest)
    | .float value :: rest => .ok (.literal (.float value), rest)
    | .mark .openParen :: .mark .closeParen :: rest => .ok (.list [], rest)
    | .mark .openParen :: rest =>
      match readExpr fuel room rest with
      | .error failure => .error failure
      | .ok (first, rest) =>
        if startsWith .comma rest then
          (readItems fuel room .closeParen rest.tail).map fun (items, rest) =>
            (.list (first :: items), rest)
        else (expect .closeParen rest).map fun rest => (first, rest)
    | .mark .openBracket :: rest =>
      (readItems fuel room .closeBracket rest).map fun (items, rest) => (.list items, rest)
    | .mark .openBrace :: rest =>
      (readEntries fuel room rest).map fun (entries, rest) => (.map entries, rest)
    | rest => .error (unexpected rest)

/-- Reads items with commas between them up to a closing bracket, a comma before which is allowed.
-/
def readItems (fuel room : Nat) (closing : Mark) (tokens : List Token) : Read (List Expr) :=
  match fuel with
  | 0 => .error .malformed
  | fuel + 1 =>
    if startsWith closing tokens then .ok ([], tokens.tail)
    else
      match readExpr fuel room tokens with
      | .error failure => .error failure
      | .ok (item, rest) =>
        let others :=
          if startsWith .comma rest then readItems fuel room closing rest.tail
          else (expect closing rest).map fun rest => ([], rest)
        others.map fun (items, rest) => (item :: items, rest)

/-- Reads the entries of a map up to its closing brace, a comma before which is allowed. -/
def readEntries (fuel room : Nat) (tokens : List Token) : Read (List (Expr × Expr)) :=
  match fuel with
  | 0 => .error .malformed
  | fuel + 1 =>
    if startsWith .closeBrace tokens then .ok ([], tokens.tail)
    else
      match readExpr fuel room tokens with
      | .error failure => .error failure
      | .ok (key, rest) =>
        match expect .colon rest with
        | .error failure => .error failure
        | .ok rest =>
          match readExpr fuel room rest with
          | .error failure => .error failure
          | .ok (value, rest) =>
            let others :=
              if startsWith .comma rest then readEntries fuel room rest.tail
              else (expect .closeBrace rest).map fun rest => ([], rest)
            others.map fun (entries, rest) => ((key, value) :: entries, rest)

end

/-- Reads the source of an expression. Between two tokens the reading passes through fewer than
twenty-four of the functions above. -/
def read (source : Text) : Except Failure Expr :=
  let tokens := Token.scan source
  match readExpr (24 * (tokens.length + 2)) maxDepth tokens with
  | .error failure => .error failure
  | .ok (expr, []) => .ok expr
  | .ok (_, rest) => .error (unexpected rest)

end Expr

end Stencil
