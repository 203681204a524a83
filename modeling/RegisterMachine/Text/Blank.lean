/-! # Blanks

The characters with the property `White_Space`: the controls from tab to carriage return and next
line, the space, and the spaces and separators of every width. Blanks part lexemes and are dropped.

* `isBlank` decides the property.
* `isBlank_of_isWhitespace`: what core counts as white space is blank. -/

namespace RegisterMachine.Text

/-- **The blanks**, by code point. -/
def isBlank (c : Char) : Bool :=
  match c.toNat with
  | 0x09 | 0x0A | 0x0B | 0x0C | 0x0D | 0x20 | 0x85 | 0xA0 | 0x1680 => true
  | 0x2028 | 0x2029 | 0x202F | 0x205F | 0x3000 => true
  | code => 0x2000 ≤ code && code ≤ 0x200A

theorem isBlank_of_isWhitespace {c : Char} (h : c.isWhitespace = true) : isBlank c = true := by
  simp only [Char.isWhitespace, Bool.or_eq_true, decide_eq_true_eq] at h
  rcases h with ((rfl | rfl) | rfl) | rfl <;> rfl

end RegisterMachine.Text
