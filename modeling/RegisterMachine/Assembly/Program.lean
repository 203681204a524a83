import RegisterMachine.Span
import RegisterMachine.Assembly.Opcode

/-! # Assembly programs

A program is a row of instructions, in the order of memory, with a table of labels. An instruction
has an opcode and at most one argument, which is an operand or a reference to a label. -/

namespace RegisterMachine.Assembly

/-- `NAME:` marks the instruction behind it, by the number of instructions before it. -/
structure Label where
  name : String
  address : Nat
  span : Span := {}
deriving DecidableEq, Repr, Inhabited

def Label.text (l : Label) : String := s!"{l.name} at {l.address}"

/-- What an instruction computes with. -/
inductive Operand
  /-- `#n`, the number itself. -/
  | immediate (value : UInt32)
  /-- `n`, the contents of a register. -/
  | register (index : Nat)
  /-- `*n`, the contents of the register that register `n` names. -/
  | pointer (index : Nat)
deriving DecidableEq, Repr, Inhabited

namespace Operand

/-- The register that is written in the operand. -/
def register? : Operand → Option Nat
  | immediate _ => none
  | register index | pointer index => some index

def text : Operand → String
  | immediate value => s!"#{value.toNat}"
  | register index => toString index
  | pointer index => s!"*{index}"

end Operand

/-- An operand, or the name of a jump's target. The target is found by `Program.resolve`. -/
inductive Argument
  | operand (operand : Operand) (span : Span)
  | reference (name : String) (target : Option Label) (span : Span)
deriving DecidableEq, Repr, Inhabited

namespace Argument

def span : Argument → Span
  | operand _ span => span
  | reference _ _ span => span

def register? : Argument → Option Nat
  | operand o _ => o.register?
  | reference _ _ _ => none

def text : Argument → String
  | operand o _ => o.text
  | reference name _ _ => name

end Argument

structure Instruction where
  opcode : Opcode
  argument : Option Argument
  span : Span := {}
deriving DecidableEq, Repr, Inhabited

def Instruction.text (i : Instruction) : String :=
  match i.argument with
  | some a => s!"{i.opcode.mnemonic} {a.text}"
  | none => i.opcode.mnemonic

/-- **An assembly program.** -/
structure Program where
  instructions : Array Instruction := #[]
  labels : Array Label := #[]
deriving DecidableEq, Repr, Inhabited

namespace Program

/-- The first label of this name. -/
def label? (p : Program) (name : String) : Option Label :=
  p.labels.find? (·.name == name)

def pushInstruction (p : Program) (i : Instruction) : Program :=
  { p with instructions := p.instructions.push i }

/-- Mark the instruction to come. -/
def pushLabel (p : Program) (name : String) (span : Span) : Program :=
  { p with labels := p.labels.push ⟨name, p.instructions.size, span⟩ }

end Program

end RegisterMachine.Assembly
