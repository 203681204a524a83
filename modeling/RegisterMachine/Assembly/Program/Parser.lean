import RegisterMachine.Assembly.Token
import RegisterMachine.Assembly.Error
import RegisterMachine.Assembly.Program

/-! # From assembly tokens to a program

A program is a row of groups: a label; `END` alone; or an opcode with its argument. A jump takes a
label reference, `STORE` an address or a pointer, and the other opcodes any operand.

* `argument?`: the argument that a token spells, its value agreeing with its kind.
* `Opcode.accepts`: the arguments that an opcode takes.
* `parse`: the program of a row of tokens. -/

namespace RegisterMachine.Assembly

/-- **The argument that a token spells.** -/
def argument? (t : Token) : Option Argument :=
  match t.kind, t.value with
  | .immediate, .number n => some (.operand (.immediate n) t.span)
  | .address, .number n => some (.operand (.register n.toNat) t.span)
  | .addressPointer, .number n => some (.operand (.pointer n.toNat) t.span)
  | .labelReference, .name name => some (.reference name none t.span)
  | _, _ => none

/-- **The arguments that an opcode takes.** -/
def Opcode.accepts (op : Opcode) : Argument → Bool
  | .reference _ _ _ => op.isJump
  | .operand (.immediate _) _ => !op.isJump && op != .store
  | .operand _ _ => !op.isJump

section Accepts

variable {op : Opcode} {o : Operand} {place : Span}

theorem ne_halt_of_isJump (h : op.isJump = true) : op ≠ .halt := by
  rintro rfl
  exact absurd h (by decide)

/-- Where an operand stands does not matter. -/
theorem accepts_operand (op : Opcode) (o : Operand) (place : Span) :
    op.accepts (.operand o place) = op.accepts (.operand o {}) := by
  cases o <;> rfl

/-- Of the opcodes that take operands, only `STORE` refuses one. -/
theorem accepts_operand_eq_false (hop : op.isJump = false) :
    op.accepts (.operand o place) = false ↔ op = .store ∧ ∃ value, o = .immediate value := by
  cases o <;> simp [Opcode.accepts, hop]

theorem isJump_of_accepts (h : op.accepts (.operand o place) = true) : op.isJump = false := by
  cases o <;> simp_all [Opcode.accepts]

end Accepts

/-- The instruction of an opcode other than `END` and the token behind it. -/
def readInstruction (op : Opcode) (span : Span) (t : Token) : Except Error Instruction :=
  match argument? t with
  | some a =>
    if op.accepts a then .ok ⟨op, some a, span⟩ else .error (.invalidArgument op t.raw t.span)
  | none => .error (.invalidArgument op t.raw t.span)

/-- The groups of a row of tokens, behind a program already read. -/
def parseFrom (program : Program) : List Token → Except Error Program
  | [] => .ok program
  | t :: rest =>
    match t.kind with
    | .label => parseFrom (program.pushLabel t.name t.span) rest
    | .opcode =>
      match t.value with
      | .opcode .halt => parseFrom (program.pushInstruction ⟨.halt, none, t.span⟩) rest
      | .opcode op =>
        match rest with
        | [] => .error (.missingArgument op t.span.stop)
        | a :: rest =>
          match readInstruction op t.span a with
          | .error e => .error e
          | .ok i => parseFrom (program.pushInstruction i) rest
      | _ => .error (.unexpectedToken t.raw t.span)
    | _ => .error (.unexpectedToken t.raw t.span)

/-- **The program of a row of tokens.** Its label references are not resolved yet. -/
def parse (tokens : List Token) : Except Error Program := parseFrom {} tokens

end RegisterMachine.Assembly
