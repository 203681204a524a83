/-! # Places in a source text

Both languages say where a lexeme stands by a `Span`, and both read their text with a `Cursor`.
Lines and columns count from one, columns and lengths count characters.

* `Span.stop`: the empty place just behind a span.
* `Span.upTo`: from the start of one span to the end of another on the same line.
* `Cursor.next`: the place after one more character. -/

namespace RegisterMachine

/-- Places are 32-bit words: a sum beyond the last word starts again at zero. -/
def wrap (n : Nat) : Nat := n % 4294967296

theorem wrap_of_lt {n : Nat} (h : n < 4294967296) : wrap n = n := Nat.mod_eq_of_lt h

/-- **Where a lexeme stands.** -/
structure Span where
  line : Nat := 0
  column : Nat := 0
  length : Nat := 0
deriving DecidableEq, Repr, Inhabited

namespace Span

/-- The empty span just behind `s`. -/
def stop (s : Span) : Span := ⟨s.line, wrap (s.column + s.length), 0⟩

/-- The span from the start of `s` to the end of `t`; `s` itself if `t` is on another line or
starts before `s`. -/
def upTo (s t : Span) : Span :=
  if s.line = t.line ∧ s.column ≤ t.column then
    ⟨s.line, s.column, wrap (t.column + t.length - s.column)⟩
  else s

/-- Shown as line and column. -/
def text (s : Span) : String := s!"{s.line}:{s.column}"

end Span

/-- **The place of the next character to be read.** -/
structure Cursor where
  line : Nat := 1
  column : Nat := 1
deriving DecidableEq, Repr, Inhabited

namespace Cursor

/-- The place after `c`: a line break opens the next line. -/
def next (p : Cursor) (c : Char) : Cursor :=
  if c = '\n' then ⟨p.line + 1, 1⟩ else ⟨p.line, p.column + 1⟩

/-- The place after a whole text. -/
def after (p : Cursor) (text : List Char) : Cursor := text.foldl next p

/-- The place `n` characters on, within the line. -/
def skip (p : Cursor) (n : Nat) : Cursor := ⟨p.line, p.column + n⟩

/-- The span of `length` characters from here. -/
def span (p : Cursor) (length : Nat) : Span := ⟨p.line, p.column, length⟩

theorem after_append (p : Cursor) (s t : List Char) : p.after (s ++ t) = (p.after s).after t := by
  simp [after]

theorem after_of_no_break {text : List Char} (h : '\n' ∉ text) (p : Cursor) :
    p.after text = p.skip text.length := by
  induction text generalizing p with
  | nil => rfl
  | cons c rest ih =>
    simp only [List.mem_cons, not_or] at h
    have hc : ¬ c = '\n' := fun e => h.1 e.symm
    rw [after, List.foldl_cons, ← after, ih h.2]
    simp only [next, hc, if_false, skip, List.length_cons]
    congr 1
    omega

end Cursor

end RegisterMachine
