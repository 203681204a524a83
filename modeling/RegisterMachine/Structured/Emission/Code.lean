import RegisterMachine.Assembly.Program

/-! # Emitted code

The code that is emitted for a tree is a row of lines of assembly. The names of its labels are made
of a purpose and a number, and no number is used twice. -/

namespace RegisterMachine.Structured

open RegisterMachine.Assembly

/-- What a label is for. -/
inductive Purpose
  | ifEnd | ifElse | whileStart | whileEnd | greaterEnd | equalFailed | equalEnd | lessFailed
  | lessEnd | notTrue | notEnd | returned
deriving DecidableEq, Repr

def Purpose.text : Purpose → String
  | ifEnd => "IF_END"
  | ifElse => "IF_ELSE"
  | whileStart => "WHILE_START"
  | whileEnd => "WHILE_END"
  | greaterEnd => "GT_END"
  | equalFailed => "EQ_FAILED"
  | equalEnd => "EQ_END"
  | lessFailed => "LT_FAILED"
  | lessEnd => "LT_END"
  | notTrue => "NOT_TRUE"
  | notEnd => "NOT_END"
  | returned => "RETURN"

structure Mark where
  purpose : Purpose
  number : Nat
deriving DecidableEq, Repr

def Mark.text (m : Mark) : String := s!"{m.purpose.text}_{m.number}"

/-- A line of assembly. -/
inductive Line
  | comment (text : String)
  | label (mark : Mark)
  | operate (opcode : Opcode) (operand : Operand)
  | jump (opcode : Opcode) (target : Mark)
  | halt
deriving DecidableEq, Repr

def Line.text : Line → String
  | comment text => "// " ++ text
  | label mark => mark.text ++ ":"
  | operate opcode operand => opcode.mnemonic ++ " " ++ operand.text
  | jump opcode target => opcode.mnemonic ++ " " ++ target.text
  | halt => Opcode.halt.mnemonic

abbrev Code := List Line

/-- **The assembly text of code**, a line for each of its lines. -/
def Code.text (code : Code) : String := "\n".intercalate (code.map Line.text) ++ "\n"

namespace Code

def load (operand : Operand) : Line := .operate .load operand

/-- Store the accumulator in a register. -/
def store (register : Nat) : Line := .operate .store (.register register)

end Code

end RegisterMachine.Structured
