import Mathlib.Data.List.Induction
import Mathlib.Data.List.TakeWhile
import RegisterMachine.Span
import RegisterMachine.Text.Comment
import RegisterMachine.Text.Word

/-! # Places in a text

The cursor counts lines and columns while a text is read. What it says is compared with the lines of
the text as they are parted at the line breaks, which know nothing of reading.

* `Span.Within`: the places in a text; `Span.Shows`: the place of a character.
* `Span.OutOfColumns`: the one place that is stored with no column.
* `Cursor.At`: the cursor in front of what is left of a text, with `At.next` and `At.skip`.
* `At.within`, `At.shows`, `At.lexeme`: what is read from the cursor on has a place in the text.
* `Within.upTo`, `Within.stop`: joined places, and the end of a place, unless it is out of
  columns. -/

namespace RegisterMachine

open RegisterMachine.Text

/-! ### Lines -/

/-- The lines of a text. -/
def linesOf (text : List Char) : List (List Char) := text.splitOn '\n'

section Lines

variable {before : List Char} {above : List (List Char)}

theorem linesOf_break (h : '\n' ∉ before) (rest : List Char) :
    linesOf (before ++ '\n' :: rest) = before :: linesOf rest :=
  List.splitOn_append_cons_self_of_not_mem h _

theorem not_mem_restOfLine (text : List Char) : '\n' ∉ restOfLine text := fun hmem =>
  absurd (List.mem_takeWhile_imp hmem) (by decide)

/-- The first line ends in front of the first line break. -/
theorem linesOf_first (text : List Char) : ∃ more, linesOf text = restOfLine text :: more := by
  have hrest := not_mem_restOfLine text
  cases hafter : afterLine text with
  | nil =>
    have htext : restOfLine text = text := by
      rw [← List.append_nil (restOfLine text), ← hafter, restOfLine_append_afterLine]
    rw [htext] at hrest ⊢
    exact ⟨[], List.splitOn_eq_singleton hrest⟩
  | cons c rest =>
    have hc : c = '\n' := by
      have hhead := List.head?_dropWhile_not (· != '\n') text
      rw [afterLine] at hafter
      rw [hafter] at hhead
      simpa using hhead
    have htext : restOfLine text ++ '\n' :: rest = text := by
      rw [← hc, ← hafter, restOfLine_append_afterLine]
    exact ⟨linesOf rest, by rw [← linesOf_break hrest, htext]⟩

theorem ne_break_of_not_blank {c : Char} (h : ¬ isBlank c = true) : c ≠ '\n' := by
  rintro rfl
  exact h (by decide)

/-- Whole lines, with their line breaks. -/
def wholeLines (above : List (List Char)) : List Char := above.flatMap (· ++ ['\n'])

theorem linesOf_above (h : ∀ l ∈ above, '\n' ∉ l) (text : List Char) :
    linesOf (wholeLines above ++ text) = above ++ linesOf text := by
  induction above with
  | nil => rfl
  | cons l above ih =>
    have htext : wholeLines (l :: above) ++ text = l ++ '\n' :: (wholeLines above ++ text) := by
      simp [wholeLines]
    rw [htext, linesOf_break (h l List.mem_cons_self),
      ih fun l' hl' => h l' (List.mem_cons_of_mem _ hl')]
    rfl

/-- A line is no longer than the text, even with the line breaks above it. -/
theorem length_line_le {line : List Char} : ∀ {text : List Char} {k : Nat},
    (linesOf text)[k]? = some line → line.length + k ≤ text.length
  | [], k, h => by
    cases k with
    | zero =>
      cases h
      exact Nat.le_refl _
    | succ k => cases h
  | c :: text, k, h => by
    rw [linesOf, List.splitOn_cons_eq_if_modifyHead] at h
    split at h
    · cases k with
      | zero =>
        cases h
        exact Nat.zero_le _
      | succ k => exact Nat.succ_le_succ (length_line_le h)
    · obtain ⟨first, more, hlines⟩ := List.exists_cons_of_ne_nil (List.splitOn_ne_nil '\n' text)
      rw [hlines] at h
      cases k with
      | zero =>
        cases h
        have hfirst : (linesOf text)[0]? = some first := by rw [linesOf, hlines]; rfl
        exact Nat.succ_le_succ (length_line_le hfirst)
      | succ k =>
        have hline : (linesOf text)[k + 1]? = some line := by rw [linesOf, hlines]; exact h
        exact Nat.le_succ_of_le (length_line_le hline)

/-- A line that is as long as the text is the only one. -/
theorem not_mem_of_length_line {line text : List Char} (h : (linesOf text)[0]? = some line)
    (hlength : text.length ≤ line.length) : '\n' ∉ text := by
  obtain ⟨more, hmore⟩ := linesOf_first text
  rw [hmore] at h
  obtain rfl : restOfLine text = line := Option.some.inj h
  have hrest : restOfLine text = text := (List.takeWhile_sublist _).eq_of_length_le hlength
  rw [← hrest]
  exact not_mem_restOfLine text

/-- **The text is one line, and as long as a text can be.** -/
def FillsLine (text : List Char) : Prop := text.length + 1 = 4294967296 ∧ '\n' ∉ text

end Lines

/-! ### Spans -/

namespace Span

/-- **The span lies in the text**: on one of its lines, and not beyond the place just behind it. -/
def Within (text : List Char) (s : Span) : Prop :=
  ∃ line, 1 ≤ s.line ∧ (linesOf text)[s.line - 1]? = some line ∧ 1 ≤ s.column ∧
    s.column + s.length ≤ line.length + 1

/-- **The span is that of a character**, and this is the character. -/
def Shows (text : List Char) (s : Span) (c : Char) : Prop :=
  s.length = 1 ∧ ∃ row, 1 ≤ s.line ∧ (linesOf text)[s.line - 1]? = some row ∧ 1 ≤ s.column ∧
    row[s.column - 1]? = some c

/-- **The span is out of columns**: it stands behind the last character of the longest line. The
column there is no word any more, and is stored as zero. -/
def OutOfColumns (text : List Char) (s : Span) : Prop := FillsLine text ∧ s = ⟨1, 0, 0⟩

end Span

/-! ### The cursor -/

/-- **The cursor is in front of what is left of a text.** -/
def Cursor.At (text : List Char) (p : Cursor) (rest : List Char) : Prop :=
  ∃ read, text = read ++ rest ∧ p = ({} : Cursor).after read

namespace Cursor

variable {text rest between : List Char} {p : Cursor} {c : Char}

theorem At.start (text : List Char) : At text {} text := ⟨[], rfl, rfl⟩

theorem At.after (h : At text p (between ++ rest)) : At text (p.after between) rest := by
  obtain ⟨read, rfl, rfl⟩ := h
  exact ⟨read ++ between, (List.append_assoc _ _ _).symm, (after_append _ _ _).symm⟩

theorem At.next (h : At text p (c :: rest)) : At text (p.next c) rest := by
  have hc : At text p ([c] ++ rest) := h
  exact hc.after

theorem At.skip (h : At text p (between ++ rest)) (hline : '\n' ∉ between) :
    At text (p.skip between.length) rest := by
  rw [← after_of_no_break hline]
  exact h.after

/-- What was read are whole lines and the beginning of the line that the cursor is in. -/
theorem after_start (read : List Char) : ∃ above before, read = wholeLines above ++ before ∧
    (∀ l ∈ above, '\n' ∉ l) ∧ '\n' ∉ before ∧
    ({} : Cursor).after read = ⟨above.length + 1, before.length + 1⟩ := by
  induction read using List.reverseRec with
  | nil => exact ⟨[], [], rfl, List.forall_mem_nil _, List.not_mem_nil, rfl⟩
  | append_singleton read c ih =>
    obtain ⟨above, before, rfl, habove, hbefore, hplace⟩ := ih
    rw [after_append, hplace]
    by_cases hc : c = '\n'
    · subst hc
      refine ⟨above ++ [before], [], by simp [wholeLines], ?_, List.not_mem_nil, ?_⟩
      · rw [List.forall_mem_append]
        exact ⟨habove, List.forall_mem_singleton.mpr hbefore⟩
      · simp [after, next]
    · refine ⟨above, before ++ [c], by simp, habove, ?_, ?_⟩
      · simp [hbefore, Ne.symm hc]
      · simp [after, next, hc]

/-- A comment is passed over, up to the end of its line. -/
theorem At.comment (h : At text p (c :: rest)) (hc : c ≠ '\n') :
    At text (p.skip (restOfLine rest).length.succ) (afterLine rest) := by
  have hline : '\n' ∉ c :: restOfLine rest := by
    simpa [Ne.symm hc] using not_mem_restOfLine rest
  refine At.skip ?_ hline
  rwa [List.cons_append, restOfLine_append_afterLine]

/-- **The line that the cursor is in**: what was read of it, and what is left of it. -/
theorem At.line (h : At text p rest) : ∃ before, 1 ≤ p.line ∧
    (linesOf text)[p.line - 1]? = some (before ++ restOfLine rest) ∧
      p.column = before.length + 1 := by
  obtain ⟨read, rfl, rfl⟩ := h
  obtain ⟨above, before, rfl, habove, hbefore, hplace⟩ := after_start read
  rw [hplace]
  refine ⟨before, Nat.le_add_left 1 _, ?_, rfl⟩
  obtain ⟨more, hmore⟩ := linesOf_first (before ++ rest)
  have hfirst : restOfLine (before ++ rest) = before ++ restOfLine rest :=
    List.takeWhile_append_of_pos fun x hx => bne_iff_ne.mpr fun heq => hbefore (heq ▸ hx)
  rw [List.append_assoc, linesOf_above habove, hmore, hfirst]
  simp

/-- **What is read from the cursor on** has its place in the text. -/
theorem At.within (h : At text p (between ++ rest)) (hline : '\n' ∉ between) :
    (p.span between.length).Within text := by
  obtain ⟨before, hpositive, hline', hcolumn⟩ := h.line
  have hrest : restOfLine (between ++ rest) = between ++ restOfLine rest :=
    List.takeWhile_append_of_pos fun x hx => bne_iff_ne.mpr fun heq => hline (heq ▸ hx)
  refine ⟨_, hpositive, hline', ?_, ?_⟩
  · show 1 ≤ p.column
    omega
  · show p.column + between.length ≤ _
    rw [hrest, hcolumn]
    simp only [List.length_append]
    omega

/-- A lexeme has its place in the text, and the cursor moves on by its length. -/
theorem At.lexeme {lexeme left : List Char} (h : At text p rest)
    (htext : lexeme ++ left = rest) (hline : '\n' ∉ lexeme) :
    (p.span lexeme.length).Within text ∧ At text (p.skip lexeme.length) left := by
  rw [← htext] at h
  exact ⟨h.within hline, h.skip hline⟩

/-- **The next character** has the place of the cursor. -/
theorem At.shows (h : At text p (c :: rest)) (hc : c ≠ '\n') : (p.span 1).Shows text c := by
  obtain ⟨before, hpositive, hline, hcolumn⟩ := h.line
  refine ⟨rfl, _, hpositive, hline, ?_, ?_⟩
  · show 1 ≤ p.column
    omega
  · show (before ++ restOfLine (c :: rest))[p.column - 1]? = some c
    simp [hcolumn, restOfLine, hc]

end Cursor

/-! ### Places that are joined -/

namespace Span

variable {text : List Char} {s s' : Span}

/-- A place that shows a character is within the text. -/
theorem Shows.within {c : Char} (h : s.Shows text c) : s.Within text := by
  obtain ⟨hlength, line, hpositive, hline, hcolumn, hc⟩ := h
  obtain ⟨hlt, -⟩ := List.getElem?_eq_some_iff.mp hc
  exact ⟨line, hpositive, hline, hcolumn, by omega⟩

/-- **From one place in the text to another** is a place in the text, if the columns are words. -/
theorem Within.upTo (hs : s.Within text) (hs' : s'.Within text)
    (htext : text.length < 4294967296) : (s.upTo s').Within text := by
  unfold Span.upTo
  split
  · rename_i hsame
    obtain ⟨line, hpositive, hline, hcolumn, hlength⟩ := hs
    obtain ⟨line', -, hline', -, hlength'⟩ := hs'
    rw [← hsame.1, hline] at hline'
    cases hline'
    have hle := length_line_le hline
    refine ⟨line, hpositive, hline, hcolumn, ?_⟩
    show s.column + wrap _ ≤ _
    rw [wrap_of_lt (by omega)]
    omega
  · exact hs

/-- **The end of a place in the text** is a place in the text, unless it is out of columns. -/
theorem Within.stop (hs : s.Within text) (htext : text.length < 4294967296) :
    s.stop.OutOfColumns text ∨ s.stop.Within text := by
  obtain ⟨line, hpositive, hline, hcolumn, hlength⟩ := hs
  have hle := length_line_le hline
  by_cases hend : s.column + s.length < 4294967296
  · refine .inr ⟨line, hpositive, hline, ?_, ?_⟩ <;>
      simp only [Span.stop, wrap_of_lt hend] <;> omega
  · -- the line is as long as the text, and so there is no other
    have hfirst : s.line = 1 := by omega
    have hsum : s.column + s.length = 4294967296 := by omega
    rw [hfirst] at hline
    refine .inl ⟨⟨by omega, not_mem_of_length_line hline (by omega)⟩, ?_⟩
    rw [Span.stop, hfirst, hsum]
    rfl

end Span

end RegisterMachine
