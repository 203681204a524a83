import RegisterMachine.Assembly.Error
import RegisterMachine.Assembly.Program

/-! # Resolving label references

Every label reference is given the first label of its name. The first reference without one is an
error. -/

namespace RegisterMachine.Assembly

/-- The instruction with its label reference resolved. -/
def Instruction.resolve (p : Program) (i : Instruction) : Except Error Instruction :=
  match i.argument with
  | some (.reference name _ span) =>
    match p.label? name with
    | some label => .ok { i with argument := some (.reference name (some label) span) }
    | none => .error (.unresolvedLabel name span)
  | _ => .ok i

/-- **Every label reference resolved.** -/
def Program.resolve (p : Program) : Except Error Program :=
  (p.instructions.mapM (Instruction.resolve p)).map fun instructions => { p with instructions }

end RegisterMachine.Assembly
