import RegisterMachine.Assembly.Token
import RegisterMachine.Assembly.Error
import RegisterMachine.Text.Comment
import RegisterMachine.Text.Word
import RegisterMachine.Text.Uppercase
import RegisterMachine.Decimal.Word

/-! # From text to assembly tokens

Blanks and comments part the lexemes. A word is a label if a colon follows it, else a mnemonic or a
label reference; names are kept in upper case. A number is a row of ASCII digits behind an optional
sigil. A word or number ends at a blank, at a comment or at the end of the text; anything else
there is an unexpected character, which is found before the number itself is judged.

* `readWord`, `readNumber`: one lexeme, with what is left of the text.
* `scan`: the lexemes of a text from a place on.
* `tokenize`: the tokens of a source. -/

namespace RegisterMachine.Assembly

open RegisterMachine.Text

/-- A token together with the text behind it, which is shorter than `text`. -/
abbrev Lexeme (text : List Char) := Token × Shorter text

/-- A word or number may end before this text. -/
def endsLexeme : List Char → Bool
  | [] => true
  | c :: rest => isBlank c || opensComment (c :: rest)

/-- The error for a text that should have been the end of a lexeme. -/
def strayCharacter (place : Cursor) : List Char → Error
  | [] => .unexpectedEnd (place.span 0)
  | c :: _ => .unexpectedCharacter c (place.span 1)

/-- A word that no colon follows: a mnemonic, or the name of a label. -/
def wordToken (start : Cursor) (word : List Char) : Token :=
  let raw := String.ofList word
  match Opcode.ofMnemonic? raw with
  | some op => ⟨.opcode, .opcode op, start.span word.length, raw⟩
  | none => ⟨.labelReference, .name (uppercase raw), start.span word.length, raw⟩

/-- A word with its colon. -/
def labelToken (start : Cursor) (word : List Char) : Token where
  kind := .label
  value := .name (uppercase (String.ofList word))
  span := start.span (word.length + 1)
  raw := String.ofList (word ++ [':'])

/-- **The word that opens with `c`.** -/
def readWord (start : Cursor) (c : Char) (text : List Char) : Except Error (Lexeme (c :: text)) :=
  let word := c :: text.takeWhile inWord
  match h : text.dropWhile inWord with
  | ':' :: rest =>
    .ok (labelToken start word, ⟨rest, by
      have := length_dropWhile_le inWord text
      simp only [h, List.length_cons] at this ⊢
      omega⟩)
  | rest =>
    if endsLexeme rest then
      .ok (wordToken start word, ⟨rest, by
        have := length_dropWhile_le inWord text
        simp only [h, List.length_cons] at this ⊢
        omega⟩)
    else .error (strayCharacter (start.skip word.length) rest)

/-- What the sigil of a number says, and whether the character is itself a digit of it. -/
def numberKind? (c : Char) : Option TokenKind :=
  if c.isDigit then some .address
  else if c = '#' then some .immediate
  else if c = '*' then some .addressPointer
  else none

/-- **The number that opens with the sigil or digit `c`.** -/
def readNumber (start : Cursor) (kind : TokenKind) (c : Char) (text : List Char) :
    Except Error (Lexeme (c :: text)) :=
  let digits := text.takeWhile Char.isDigit
  let rest := text.dropWhile Char.isDigit
  let lexeme := c :: digits
  let number := if c.isDigit then lexeme else digits
  if endsLexeme rest then
    if number.isEmpty then .error (.missingNumber c (start.span 1))
    else match Decimal.word? number with
      | none => .error (.numberOutOfRange (start.span lexeme.length))
      | some value =>
        .ok (⟨kind, .number value, start.span lexeme.length, String.ofList lexeme⟩,
          .skip Char.isDigit c text)
  else .error (strayCharacter (start.skip lexeme.length) rest)

/-- **One lexeme.** -/
def readLexeme (start : Cursor) (c : Char) (text : List Char) :
    Except Error (Lexeme (c :: text)) :=
  if opensWord c then readWord start c text
  else match numberKind? c with
    | some kind => readNumber start kind c text
    | none => .error (.unexpectedCharacter c (start.span 1))

/-- **The lexemes of a text**, behind those already found. -/
def scan (found : Array Token) (place : Cursor) : (text : List Char) → Except Error (Array Token)
  | [] => .ok found
  | c :: text =>
    if isBlank c then scan found (place.next c) text
    else if opensComment (c :: text) then
      scan found (place.skip (restOfLine text).length.succ) (afterLine text)
    else match readLexeme place c text with
      | .error e => .error e
      | .ok (token, ⟨rest, _⟩) => scan (found.push token) (place.skip token.span.length) rest
termination_by text => text.length
decreasing_by
  · simp
  · exact Nat.lt_succ_of_le (length_afterLine_le text)
  · assumption

/-- **The tokens of a source.** -/
def tokenize (source : String) : Except Error (List Token) :=
  (scan #[] {} source.toList).map Array.toList

end RegisterMachine.Assembly
