import RegisterMachine.Structured.Token
import RegisterMachine.Structured.Error
import RegisterMachine.Text.Comment
import RegisterMachine.Text.Word
import RegisterMachine.Decimal.Word

/-! # From text to FAIL tokens

Blanks and comments part the lexemes and need not stand between them. A lexeme is as long as it can
be: a row of digits, a word, a symbol of two characters, or else a symbol of one.

* `readNumber`, `readWord`, `readSymbol`: one lexeme, with what is left of the text.
* `scan`: the lexemes of a text from a place on.
* `tokenize`: the tokens of a source. -/

namespace RegisterMachine.Structured

open RegisterMachine.Text

/-- A token together with the text behind it, which is shorter than `text`. -/
abbrev Lexeme (text : List Char) := Token × Shorter text

/-- **The number that opens with the digit `c`.** -/
def readNumber (start : Cursor) (c : Char) (text : List Char) :
    Except Error (Lexeme (c :: text)) :=
  let lexeme := c :: text.takeWhile Char.isDigit
  let raw := String.ofList lexeme
  let span := start.span lexeme.length
  match Decimal.word? lexeme with
  | some value => .ok (⟨.number, .number value, span, raw⟩, .skip Char.isDigit c text)
  | none => .error ⟨.numberOutOfRange, s!"number `{raw}` does not fit in a register", span⟩

/-- A word: a keyword or an identifier. -/
def wordToken (start : Cursor) (word : List Char) : Token :=
  let raw := String.ofList word
  match Keyword.ofText? raw with
  | some keyword => ⟨.keyword keyword, .none, start.span word.length, raw⟩
  | none => ⟨.identifier, .name raw, start.span word.length, raw⟩

/-- **The word that opens with `c`.** -/
def readWord (start : Cursor) (c : Char) (text : List Char) : Lexeme (c :: text) :=
  (wordToken start (c :: text.takeWhile inWord), .skip inWord c text)

/-- A symbol. -/
def symbolToken (start : Cursor) (kind : TokenKind) (lexeme : List Char) : Token :=
  ⟨kind, .none, start.span lexeme.length, String.ofList lexeme⟩

/-- The symbol of two characters that opens with `c`. -/
def readDouble? (start : Cursor) (c : Char) : (text : List Char) → Option (Lexeme (c :: text))
  | [] => none
  | d :: rest =>
    (TokenKind.ofDouble? c d).map fun kind =>
      (symbolToken start kind [c, d], (Shorter.tail d rest).behind c)

/-- **The symbol that opens with `c`.** -/
def readSymbol (start : Cursor) (c : Char) (text : List Char) :
    Except Error (Lexeme (c :: text)) :=
  match readDouble? start c text with
  | some lexeme => .ok lexeme
  | none =>
    match TokenKind.ofSingle? c with
    | some kind => .ok (symbolToken start kind [c], .tail c text)
    | none => .error ⟨.unexpectedCharacter, s!"unexpected character `{c}`", start.span 1⟩

/-- **One lexeme.** -/
def readLexeme (start : Cursor) (c : Char) (text : List Char) :
    Except Error (Lexeme (c :: text)) :=
  if c.isDigit then readNumber start c text
  else if opensWord c then .ok (readWord start c text)
  else readSymbol start c text

/-- **The lexemes of a text**, behind those already found. -/
def scan (found : Array Token) (place : Cursor) : (text : List Char) → Except Error (Array Token)
  | [] => .ok found
  | c :: text =>
    if isBlank c then scan found (place.next c) text
    else if opensComment (c :: text) then
      scan found (place.skip (restOfLine text).length.succ) (afterLine text)
    else match readLexeme place c text with
      | .error e => .error e
      | .ok (token, ⟨rest, _⟩) => scan (found.push token) (place.skip token.span.length) rest
termination_by text => text.length
decreasing_by
  · simp
  · exact Nat.lt_succ_of_le (length_afterLine_le text)
  · assumption

/-- **The tokens of a source.** -/
def tokenize (source : String) : Except Error (List Token) :=
  (scan #[] {} source.toList).map Array.toList

end RegisterMachine.Structured
