import RegisterMachine.Assembly.Program
import RegisterMachine.Machine.Bank
import RegisterMachine.Machine.Outcome

/-! # The effect of one instruction

An instruction goes on to the next one, possibly after a change of one register, or jumps, or halts
the machine. What it does depends on the bank only.

* Addition and multiplication wrap, subtraction stops at zero, division by zero halts.
* A pointer is read through both of its registers.
* A jump that is not taken ignores its argument. -/

namespace RegisterMachine.Machine

open RegisterMachine.Assembly

inductive Effect
  | next
  | write (register : Nat) (value : UInt32)
  | jump (address : Nat)
  | halt (reason : StopReason)
deriving DecidableEq, Repr

/-- The contents of a register in the bank. -/
def readRegister (bank : Bank) (register : Nat) : Except Fault UInt32 :=
  match bank.read? register with
  | some value => .ok value
  | none => .error (.registerOutOfRange register)

/-- **The word that an operand stands for.** -/
def operandValue (bank : Bank) : Operand → Except Fault UInt32
  | .immediate value => .ok value
  | .register register => readRegister bank register
  | .pointer register =>
    match readRegister bank register with
    | .ok target => readRegister bank target.toNat
    | .error fault => .error fault

/-- The register that an operand addresses, whether or not it lies in the bank. -/
def operandTarget (bank : Bank) (missing : Fault) : Operand → Except Fault Nat
  | .immediate _ => .error missing
  | .register register => .ok register
  | .pointer register =>
    match readRegister bank register with
    | .ok target => .ok target.toNat
    | .error fault => .error fault

/-- What the accumulator becomes. -/
def compute (op : Opcode) (accumulator value : UInt32) : Except StopReason UInt32 :=
  match op with
  | .add => .ok (accumulator + value)
  | .sub => .ok (if value ≤ accumulator then accumulator - value else 0)
  | .mul => .ok (accumulator * value)
  | .div => if value = 0 then .error .divisionByZero else .ok (accumulator / value)
  | _ => .ok value

/-- The effect of an opcode that computes with the value of its operand. -/
def computeEffect (bank : Bank) (op : Opcode) (operand : Operand) : Effect :=
  match operandValue bank operand with
  | .error fault => .halt (.fault fault)
  | .ok value =>
    match compute op bank.accumulator value with
    | .error reason => .halt reason
    | .ok result => .write 0 result

/-- The effect of `STORE`. -/
def storeEffect (bank : Bank) (missing : Fault) (operand : Operand) : Effect :=
  match operandTarget bank missing operand with
  | .error fault => .halt (.fault fault)
  | .ok target =>
    if target < bank.size then .write target bank.accumulator
    else .halt (.fault (.registerOutOfRange target))

/-- A jump is taken. -/
def jumps (op : Opcode) (accumulator : UInt32) : Bool :=
  match op with
  | .jzero => accumulator == 0
  | .jnzero => accumulator != 0
  | _ => true

/-- The effect of a jump that is taken, at this address. -/
def jumpEffect (address : Nat) : Option Argument → Effect
  | some (.reference _ (some label) _) => .jump label.address
  | some (.reference _ none _) => .halt (.fault (.unresolvedLabel address))
  | _ => .halt (.fault (.missingArgument address))

/-- **The effect of an instruction** at this address. -/
def effect (bank : Bank) (address : Nat) (i : Instruction) : Effect :=
  match i.opcode with
  | .halt => .halt .halted
  | .goto | .jzero | .jnzero =>
    if jumps i.opcode bank.accumulator then jumpEffect address i.argument else .next
  | .store =>
    match i.argument with
    | some (.operand operand _) => storeEffect bank (.missingArgument address) operand
    | _ => .halt (.fault (.missingArgument address))
  | .load | .add | .sub | .mul | .div =>
    match i.argument with
    | some (.operand operand _) => computeEffect bank i.opcode operand
    | _ => .halt (.fault (.missingArgument address))

end RegisterMachine.Machine
