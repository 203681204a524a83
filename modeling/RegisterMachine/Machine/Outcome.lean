/-! # Why a run ends, and what can be watched

A run ends for a `StopReason`. While it runs the machine reports `Event`s, from which an observer
can follow the registers. -/

namespace RegisterMachine.Machine

/-- What no check before the run can rule out. -/
inductive Fault
  /-- A register, written out or read through a pointer, outside the bank. -/
  | registerOutOfRange (register : Nat)
  /-- A jump whose label was never resolved. -/
  | unresolvedLabel (instruction : Nat)
  /-- An instruction without the argument that its opcode needs. -/
  | missingArgument (instruction : Nat)
deriving DecidableEq, Repr

inductive StopReason
  /-- The program counter is behind the last instruction. -/
  | endOfProgram
  /-- `END` was executed. -/
  | halted
  | divisionByZero
  /-- The run was cancelled from outside. -/
  | cancelled
  | fault (fault : Fault)
deriving DecidableEq, Repr

def StopReason.text : StopReason → String
  | endOfProgram => "end of program"
  | halted => "END executed"
  | divisionByZero => "division by zero"
  | cancelled => "cancelled"
  | fault (.registerOutOfRange register) => s!"register {register} out of range"
  | fault (.unresolvedLabel instruction) => s!"unresolved label at instruction {instruction}"
  | fault (.missingArgument instruction) => s!"missing argument at instruction {instruction}"

inductive Event
  | started
  /-- The instruction at this address is about to be executed. -/
  | stepped (address : Nat)
  /-- The register has this new value. -/
  | changed (register : Nat) (value : UInt32)
  | stopped (reason : StopReason)
deriving DecidableEq, Repr

end RegisterMachine.Machine
