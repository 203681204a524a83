import RegisterMachine.Remainder

/-! # Comments

In both languages a comment runs from two slashes to the end of the line. The line break is not part
of it. -/

namespace RegisterMachine.Text

/-- A comment starts here. -/
def opensComment : List Char → Bool
  | '/' :: '/' :: _ => true
  | _ => false

theorem opensComment_of_ne {c : Char} (h : c ≠ '/') (text : List Char) :
    opensComment (c :: text) = false := by
  unfold opensComment
  split
  · rename_i heq
    exact absurd (List.cons.inj heq).1 h
  · rfl

/-- The rest of the line. -/
def restOfLine (text : List Char) : List Char := text.takeWhile (· != '\n')

/-- What follows the rest of the line: the line break, or nothing. -/
def afterLine (text : List Char) : List Char := text.dropWhile (· != '\n')

theorem restOfLine_append_afterLine (text : List Char) :
    restOfLine text ++ afterLine text = text :=
  List.takeWhile_append_dropWhile

theorem length_afterLine_le (text : List Char) : (afterLine text).length ≤ text.length :=
  length_dropWhile_le _ _

end RegisterMachine.Text
