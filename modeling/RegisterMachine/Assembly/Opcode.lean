/-! # Opcodes

The ten operations of the machine and their mnemonics, which are read in either case. -/

namespace RegisterMachine.Assembly

inductive Opcode
  | load | store | add | sub | mul | div | goto | jzero | jnzero | halt
deriving DecidableEq, Repr, Inhabited

namespace Opcode

def all : List Opcode := [load, store, add, sub, mul, div, goto, jzero, jnzero, halt]

def mnemonic : Opcode → String
  | load => "LOAD"
  | store => "STORE"
  | add => "ADD"
  | sub => "SUB"
  | mul => "MUL"
  | div => "DIV"
  | goto => "GOTO"
  | jzero => "JZERO"
  | jnzero => "JNZERO"
  | halt => "END"

/-- **The opcode of a mnemonic**, ASCII letters of either case. -/
def ofMnemonic? (text : String) : Option Opcode :=
  all.find? fun op => op.mnemonic.toList == text.toList.map Char.toUpper

/-- The opcodes that name a label. -/
def isJump : Opcode → Bool
  | goto | jzero | jnzero => true
  | _ => false

theorem mem_all (op : Opcode) : op ∈ all := by cases op <;> decide

theorem ofMnemonic?_mnemonic (op : Opcode) : ofMnemonic? op.mnemonic = some op := by
  cases op <;> decide

end Opcode

end RegisterMachine.Assembly
