import RegisterMachine.Span
import RegisterMachine.Assembly.Opcode

/-! # Tokens of the assembly language

A token has a kind, a value, the place where it stands and the lexeme as it was written. Reading a
source gives kinds and values that agree; a token built by hand need not, and the parser checks. -/

namespace RegisterMachine.Assembly

inductive TokenKind
  /-- `NAME:` -/
  | label
  | opcode
  /-- A bare word that is no mnemonic. -/
  | labelReference
  /-- `n` -/
  | address
  /-- `#n` -/
  | immediate
  /-- `*n` -/
  | addressPointer
deriving DecidableEq, Repr, Inhabited

def TokenKind.text : TokenKind → String
  | label => "Label"
  | opcode => "OpCode"
  | labelReference => "LabelReference"
  | address => "Address"
  | immediate => "Immediate"
  | addressPointer => "AddressPointer"

inductive TokenValue
  | name (text : String)
  | number (value : UInt32)
  | opcode (op : Opcode)
deriving DecidableEq, Repr, Inhabited

structure Token where
  kind : TokenKind
  value : TokenValue
  span : Span
  /-- The lexeme, sigils included. -/
  raw : String
deriving DecidableEq, Repr, Inhabited

namespace Token

/-- The name a token carries, empty if it carries none. -/
def name (t : Token) : String :=
  match t.value with
  | .name text => text
  | _ => ""

/-- The back quotes around a lexeme are not special characters. -/
def text (t : Token) : String :=
  s!"{t.kind.text} `{t.raw}` at {t.span.text} ({t.span.length})"

end Token

end RegisterMachine.Assembly
