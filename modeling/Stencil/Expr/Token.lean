import Stencil.Data.Json
import Stencil.Number.Decimal

/-!
# Tokens of expressions

`Token.scan` cuts the source of an expression into names, literals and marks. Blanks between them
are dropped. What cannot be read becomes a last token that carries the failure, so that it counts
only when the reader of the expression gets there.
-/

namespace Stencil

/-- Why an expression has no value. -/
inductive Failure
  /-- The source is not an expression. -/
  | malformed
  /-- A text literal has a backslash before something it cannot stand before. -/
  | badEscape
  | unknownFilter
  | unknownTest
  | unknownFunction
  | unknownMethod
  /-- A part of a value that is missing itself was asked for. -/
  | undefinedValue
  | invalidOperation
  | tooManyArguments
  | missingArgument
  deriving DecidableEq, Repr

def Failure.message : Failure → Text
  | .malformed => "syntax error".toList
  | .badEscape => "bad string escape".toList
  | .unknownFilter => "unknown filter".toList
  | .unknownTest => "unknown test".toList
  | .unknownFunction => "unknown function".toList
  | .unknownMethod => "unknown method".toList
  | .undefinedValue => "undefined value".toList
  | .invalidOperation => "invalid operation".toList
  | .tooManyArguments => "too many arguments".toList
  | .missingArgument => "missing argument".toList

namespace Expr

inductive Mark
  | plus
  | minus
  | times
  | divide
  | floorDivide
  | modulo
  | power
  | tilde
  | equal
  | notEqual
  | less
  | lessEqual
  | greater
  | greaterEqual
  | dot
  | comma
  | colon
  | assign
  | pipe
  | openParen
  | closeParen
  | openBracket
  | closeBracket
  | openBrace
  | closeBrace
  deriving DecidableEq, Repr

/-- The mark at the start of a text, the longer one where two fit. -/
def Mark.ofStart? : Text → Option (Mark × Text)
  | '/' :: '/' :: rest => some (.floorDivide, rest)
  | '*' :: '*' :: rest => some (.power, rest)
  | '=' :: '=' :: rest => some (.equal, rest)
  | '!' :: '=' :: rest => some (.notEqual, rest)
  | '>' :: '=' :: rest => some (.greaterEqual, rest)
  | '<' :: '=' :: rest => some (.lessEqual, rest)
  | '+' :: rest => some (.plus, rest)
  | '-' :: rest => some (.minus, rest)
  | '*' :: rest => some (.times, rest)
  | '/' :: rest => some (.divide, rest)
  | '%' :: rest => some (.modulo, rest)
  | '~' :: rest => some (.tilde, rest)
  | '>' :: rest => some (.greater, rest)
  | '<' :: rest => some (.less, rest)
  | '=' :: rest => some (.assign, rest)
  | '.' :: rest => some (.dot, rest)
  | ',' :: rest => some (.comma, rest)
  | ':' :: rest => some (.colon, rest)
  | '|' :: rest => some (.pipe, rest)
  | '(' :: rest => some (.openParen, rest)
  | ')' :: rest => some (.closeParen, rest)
  | '[' :: rest => some (.openBracket, rest)
  | ']' :: rest => some (.closeBracket, rest)
  | '{' :: rest => some (.openBrace, rest)
  | '}' :: rest => some (.closeBrace, rest)
  | _ => none

inductive Token
  | name (name : Text)
  | text (value : Text)
  | int (value : Nat)
  | float (value : Float)
  | mark (mark : Mark)
  /-- The source cannot be read on. -/
  | fault (failure : Failure)

namespace Token

def isBlank (c : Char) : Bool :=
  c == ' ' || c == '\t' || c == '\n' || c == '\x0c' || c == '\r'

/-- A letter of the Latin alphabet or a line at the bottom. -/
def startsName (c : Char) : Bool :=
  ('a' ≤ c && c ≤ 'z') || ('A' ≤ c && c ≤ 'Z') || c == '_'

/-- A character of a name behind its first. -/
def continuesName (c : Char) : Bool := startsName c || Text.isDigit c

/-! ## Numbers -/

/-- Where the reading of a number stands. -/
inductive NumberPart
  | whole
  | fraction
  /-- Right after the mark of the exponent. -/
  | exponentMark
  | exponent
  /-- The digits of a number in a base other than ten. -/
  | based
  deriving DecidableEq, Repr

/-- The part that a character continues the number with, if it does. -/
def NumberPart.step (hexadecimal : Bool) : NumberPart → Char → Option NumberPart
  | .whole, '.' => some .fraction
  | .whole, 'e' | .whole, 'E' | .fraction, 'e' | .fraction, 'E' => some .exponentMark
  | .exponentMark, '+' | .exponentMark, '-' => some .exponent
  | part, '_' => some part
  | .exponentMark, c => if Text.isDigit c then some .exponent else none
  | .based, c =>
    if Text.isDigit c || (hexadecimal && (Json.hexValue? c).isSome) then some .based else none
  | part, c => if Text.isDigit c then some part else none

/-- The longest run of characters that continue a number, the part it ends in and what follows. -/
def takeNumber (hexadecimal : Bool) (part : NumberPart) : Text → Text × NumberPart × Text
  | [] => ([], part, [])
  | c :: rest =>
    match part.step hexadecimal c with
    | some next =>
      let (taken, last, rest) := takeNumber hexadecimal next rest
      (c :: taken, last, rest)
    | none => ([], part, c :: rest)

def basedValue? (base : Nat) (digits : Text) : Option Nat :=
  if digits.isEmpty then none
  else digits.foldlM (fun n c => do
    let digit ← Json.hexValue? c
    if digit < base then some (base * n + digit) else none) 0

/-- The greatest whole number that can be written. -/
def maxLiteral : Nat := Number.twoTo 128 - 1

/-- The base that a number starts with, and its digits. -/
def splitBase : Text → Nat × Text
  | '0' :: 'b' :: rest | '0' :: 'B' :: rest => (2, rest)
  | '0' :: 'o' :: rest | '0' :: 'O' :: rest => (8, rest)
  | '0' :: 'x' :: rest | '0' :: 'X' :: rest => (16, rest)
  | rest => (10, rest)

/-- Reads the number at the start of a text. Lines at the bottom may stand anywhere in it but at its
end. -/
def readNumber (text : Text) : Token × Text :=
  let (base, digits) := splitBase text
  let (taken, part, rest) := takeNumber (base == 16) (if base = 10 then .whole else .based) digits
  let plain := taken.filter (· != '_')
  if taken.getLast? == some '_' then (.fault .malformed, [])
  else if part = .whole ∨ part = .based then
    match (basedValue? base plain).filter (· ≤ maxLiteral) with
    | some n => (.int n, rest)
    | none => (.fault .malformed, [])
  else
    match Decimal.read? plain with
    | some decimal => (.float decimal.toFloat, rest)
    | none => (.fault .malformed, [])

/-! ## Texts -/

/-- The characters up to the closing quote as they are written, and what follows it. -/
def takeQuoted (quote : Char) : Text → Option (Text × Text)
  | [] => none
  | ['\\'] => none
  | '\\' :: c :: rest => (takeQuoted quote rest).map fun (body, rest) => ('\\' :: c :: body, rest)
  | c :: rest =>
    if c == quote then some ([], rest)
    else (takeQuoted quote rest).map fun (body, rest) => (c :: body, rest)

/-- The character that a letter after a backslash stands for. -/
def escaped? (letter : Char) : Option Char :=
  if letter == '\'' then some letter else Json.escaped? letter

/-- Replaces what is written with a backslash; two halves of a character have to follow each other.
-/
def unescape? : Text → Option Text
  | [] => some []
  | '\\' :: 'u' :: a :: b :: c :: d :: '\\' :: 'u' :: e :: f :: g :: h :: rest => do
    let first ← Json.hexUnit? a b c d
    if Json.isHighHalf first then
      let second ← Json.hexUnit? e f g h
      if Json.isLowHalf second then
        let text ← unescape? rest
        return Char.ofNat (0x10000 + (first - 0xd800) * 0x400 + (second - 0xdc00)) :: text
      else none
    else if Json.isLowHalf first then none
    else
      let text ← unescape? ('\\' :: 'u' :: e :: f :: g :: h :: rest)
      return Char.ofNat first :: text
  | '\\' :: 'u' :: a :: b :: c :: d :: rest => do
    let unit ← Json.hexUnit? a b c d
    if Json.isHighHalf unit || Json.isLowHalf unit then none
    else return Char.ofNat unit :: (← unescape? rest)
  | ['\\'] => none
  | '\\' :: letter :: rest => do return (← escaped? letter) :: (← unescape? rest)
  | c :: rest => (unescape? rest).map (c :: ·)

def readText (quote : Char) (text : Text) : Token × Text :=
  match takeQuoted quote text with
  | none => (.fault .malformed, [])
  | some (body, rest) =>
    match unescape? body with
    | some value => (.text value, rest)
    | none => (.fault .badEscape, [])

/-! ## All tokens -/

/-- Reads the token at the start of a text that starts with no blank. -/
def read (c : Char) (rest : Text) : Token × Text :=
  match Mark.ofStart? (c :: rest) with
  | some (found, rest) => (.mark found, rest)
  | none =>
    if c == '\'' || c == '"' then readText c rest
    else if Text.isDigit c then readNumber (c :: rest)
    else if startsName c then
      (.name (c :: rest.takeWhile continuesName), rest.dropWhile continuesName)
    else (.fault .malformed, [])

/-- Reads tokens, as many as `fuel` allows. -/
def scanFrom : Nat → Text → List Token
  | 0, _ => []
  | fuel + 1, source =>
    match source.dropWhile isBlank with
    | [] => []
    | c :: rest =>
      let (token, rest) := read c rest
      token :: scanFrom fuel rest

/-- The tokens of an expression. Every token takes at least one character. -/
def scan (source : Text) : List Token := scanFrom source.length source

end Token

end Expr

end Stencil
