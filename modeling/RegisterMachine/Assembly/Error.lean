import RegisterMachine.Span
import RegisterMachine.Assembly.Opcode

/-! # What can be wrong with an assembly source

Every cause names the place it is about. `Error.message` is the wording. -/

namespace RegisterMachine.Assembly

inductive Error
  | unexpectedCharacter (character : Char) (span : Span)
  | missingNumber (sigil : Char) (span : Span)
  | numberOutOfRange (span : Span)
  | unexpectedEnd (span : Span)
  | unexpectedToken (raw : String) (span : Span)
  | missingArgument (opcode : Opcode) (span : Span)
  | invalidArgument (opcode : Opcode) (raw : String) (span : Span)
  | unresolvedLabel (name : String) (span : Span)
  | registerOutOfBounds (register bank : Nat) (span : Span)
deriving DecidableEq, Repr

namespace Error

def span : Error → Span
  | unexpectedCharacter _ span | missingNumber _ span | numberOutOfRange span | unexpectedEnd span
  | unexpectedToken _ span | missingArgument _ span | invalidArgument _ _ span
  | unresolvedLabel _ span | registerOutOfBounds _ _ span => span

def message : Error → String
  | unexpectedCharacter character span =>
    s!"unexpected character '{character}' at {span.text}"
  | missingNumber sigil span => s!"missing number after '{sigil}' at {span.text}"
  | numberOutOfRange span => s!"number does not fit in 32 bits at {span.text}"
  | unexpectedEnd _ => "unexpected state at end of file"
  | unexpectedToken raw span => s!"unexpected token `{raw}` at {span.text}"
  | missingArgument opcode span =>
    s!"opcode {opcode.mnemonic} is missing its argument at {span.text}"
  | invalidArgument opcode raw span =>
    s!"invalid argument `{raw}` for opcode {opcode.mnemonic} at {span.text}"
  | unresolvedLabel name span => s!"label '{name}' not found at {span.text}"
  | registerOutOfBounds register bank span =>
    s!"register {register} out of bounds (bank has {bank}) at {span.text}"

end Error

end RegisterMachine.Assembly
