import RegisterMachine.Text.Extender
import RegisterMachine.Text.Printable

/-! # Quoted text

A text between double quotes, in which every character can be told by its looks. A quote, a
backslash and the common controls have short escapes; what does not print, and what would join the
character before it, is written by its code point.

* `escaped`: how one character is written.
* `quoted`: a whole text.
* `escaped_of_ascii`: visible ASCII stands for itself, but for the quote and the backslash. -/

namespace RegisterMachine.Text

/-- A character by its code point, in hexadecimal. -/
def codeEscape (c : Char) : List Char :=
  '\\' :: 'u' :: '\x7b' :: Nat.toDigits 16 c.toNat ++ ['\x7d']

/-- **A character between double quotes.** -/
def escaped : Char → List Char
  | '"' => ['\\', '"']
  | '\\' => ['\\', '\\']
  | '\n' => ['\\', 'n']
  | '\r' => ['\\', 'r']
  | '\t' => ['\\', 't']
  | '\x00' => ['\\', '0']
  | c => if isPrintable c && !isExtender c then [c] else codeEscape c

/-- **A text between double quotes.** -/
def quoted (s : String) : String := String.ofList ('"' :: s.toList.flatMap escaped ++ ['"'])

theorem escaped_of_ascii {c : Char} (low : 32 ≤ c.toNat) (high : c.toNat ≤ 126)
    (quote : c ≠ '"') (backslash : c ≠ '\\') : escaped c = [c] := by
  unfold escaped
  split <;> try contradiction
  rw [isPrintable_of_ascii low high, isExtender_of_ascii (by omega)]
  rfl

end RegisterMachine.Text
