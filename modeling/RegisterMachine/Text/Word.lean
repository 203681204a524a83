import RegisterMachine.Text.Blank
import RegisterMachine.Text.Numeral

/-! # Words

A word opens with a letter or the low line and goes on with letters, numerals and low lines. Names,
keywords and mnemonics of both languages are words. -/

namespace RegisterMachine.Text

/-- A word may open with this character. -/
def opensWord (c : Char) : Bool := isLetter c || c == '_'

/-- A word may go on with this character. -/
def inWord (c : Char) : Bool := isLetter c || isNumeral c || c == '_'

theorem inWord_of_opensWord {c : Char} (h : opensWord c = true) : inWord c = true := by
  simp only [opensWord, Bool.or_eq_true] at h
  rcases h with h | h <;> simp [inWord, h]

end RegisterMachine.Text
