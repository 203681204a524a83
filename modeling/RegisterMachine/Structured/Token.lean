import RegisterMachine.Span
import RegisterMachine.Structured.Operator

/-! # Tokens of FAIL

As in the assembly language, a token has a kind, a value, a place and the lexeme as written. The
parser goes by the kind; it takes names from the lexeme and numbers from the value. -/

namespace RegisterMachine.Structured

inductive TokenKind
  | keyword (keyword : Keyword)
  | identifier
  | number
  | binary (operator : Operator)
  /-- `+=` and its kin. -/
  | selfAssignment (operator : Operator)
  /-- `++` and `--`. -/
  | incremental (operator : Operator)
  | assign
  | arrow
  | leftParen
  | rightParen
  | leftBrace
  | rightBrace
  | leftBracket
  | rightBracket
  | semicolon
  | comma
deriving DecidableEq, Repr, Inhabited

namespace TokenKind

def text : TokenKind → String
  | keyword k => s!"Keyword({k.name})"
  | identifier => "Identifier"
  | number => "Number"
  | binary op => s!"Binary({op.name})"
  | selfAssignment op => s!"SelfAssignment({op.name})"
  | incremental .add => "Incremental(Increment)"
  | incremental _ => "Incremental(Decrement)"
  | assign => "Assign"
  | arrow => "Arrow"
  | leftParen => "LParen"
  | rightParen => "RParen"
  | leftBrace => "LBrace"
  | rightBrace => "RBrace"
  | leftBracket => "LBracket"
  | rightBracket => "RBracket"
  | semicolon => "Semi"
  | comma => "Comma"

/-- The symbols of two characters. -/
def ofDouble? (first second : Char) : Option TokenKind :=
  let pair := String.ofList [first, second]
  if pair = "->" then some arrow
  else match Operator.ofSymbol? pair with
    | some op => some (binary op)
    | none => match Operator.ofSelfAssignment? pair with
      | some op => some (selfAssignment op)
      | none => (Operator.ofIncrement? pair).map incremental

/-- The symbols of one character. -/
def ofSingle? : Char → Option TokenKind
  | '=' => some assign
  | '(' => some leftParen
  | ')' => some rightParen
  | '\x7b' => some leftBrace
  | '\x7d' => some rightBrace
  | '[' => some leftBracket
  | ']' => some rightBracket
  | ';' => some semicolon
  | ',' => some comma
  | c => (Operator.ofSymbol? (String.ofList [c])).map binary

end TokenKind

inductive TokenValue
  | none
  | name (text : String)
  | number (value : UInt32)
deriving DecidableEq, Repr, Inhabited

structure Token where
  kind : TokenKind
  value : TokenValue
  span : Span
  /-- The lexeme. -/
  raw : String
deriving DecidableEq, Repr, Inhabited

namespace Token

def number? (t : Token) : Option UInt32 :=
  match t.value with
  | .number value => some value
  | _ => none

def text (t : Token) : String :=
  s!"{t.kind.text} `{t.raw}` at {t.span.text} ({t.span.length})"

end Token

end RegisterMachine.Structured
