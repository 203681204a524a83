import RegisterMachine.Assembly.Error
import RegisterMachine.Assembly.Program

/-! # Checking register operands

The registers written in a program must lie in the bank, which counts the accumulator. Where a
pointer leads is known to the running machine only. -/

namespace RegisterMachine.Assembly

/-- The error of an instruction that names a register outside the bank. -/
def Instruction.outOfBounds? (bank : Nat) (i : Instruction) : Option Error :=
  match i.argument with
  | none => none
  | some a =>
    match a.register? with
    | none => none
    | some register =>
      if bank ≤ register then some (.registerOutOfBounds register bank a.span) else none

/-- **All register operands lie in the bank**; if not, the first that does not. -/
def Program.checkBounds (p : Program) (bank : Nat) : Except Error Unit :=
  match p.instructions.toList.findSome? (·.outOfBounds? bank) with
  | some e => .error e
  | none => .ok ()

end RegisterMachine.Assembly
