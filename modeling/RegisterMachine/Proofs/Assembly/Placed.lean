import RegisterMachine.Assembly.Token.Lexer
import RegisterMachine.Assembly.Program.Bounds
import RegisterMachine.Assembly.Program.Labels
import RegisterMachine.Assembly.Program.Parser
import RegisterMachine.Proofs.Assembly.Checked
import RegisterMachine.Proofs.Text.Places

/-! # Where the errors of an assembly source are

Every token has its place in the source, and what is wrong is about a token, about the end of one,
or about the character where a lexeme should have ended.

* `Faults`: an error with a place in the source.
* `scan_outcome`: reading tokens; `parseFrom_outcome`, `resolve_outcome`, `checkBounds_outcome`:
  what is done with them. -/

namespace RegisterMachine.Assembly

open RegisterMachine.Success RegisterMachine.Text

section Lexemes

variable {text rest : List Char} {start : Cursor} {c : Char}

end Lexemes

/-! ### Tokens -/

/-- The arguments of instructions have their places in the text. -/
def Program.Within (text : List Char) (p : Program) : Prop :=
  ∀ i ∈ p.instructions, ∀ a, i.argument = some a → a.span.Within text

section Programs

variable {text : List Char} {p : Program}

theorem Program.Within.pushInstruction (h : p.Within text) {i : Instruction}
    (hi : ∀ a, i.argument = some a → a.span.Within text) : (p.pushInstruction i).Within text := by
  intro i' hi' a ha
  rcases Array.mem_push.mp hi' with hi' | rfl
  · exact h i' hi' a ha
  · exact hi a ha

end Programs

end RegisterMachine.Assembly
