import RegisterMachine.Proofs.Text.Places

/-! # Texts laid out in lexemes

Between the lexemes of a text stand blanks and comments, and nothing else. Where lexemes are is said
by their spans; what is there is said by the lines of the text, parted at the line breaks.

* `significant`: a text without its comments and blanks, line by line.
* `Span.Spells`, `Span.Before`, `Span.Covers`: what stands at a place, and how places lie.
* `Lossless`: lexemes with their places, of which nothing is missing.
* `Laid`: a text that is taken apart from the front; `Laid.lossless`: nothing is lost by that. -/

namespace RegisterMachine.Text

/-! ### Texts without comments and blanks -/

/-- A line in front of its first comment. -/
def codeOf : List Char → List Char
  | [] => []
  | c :: line => if opensComment (c :: line) then [] else c :: codeOf line

/-- **A text without its comments and blanks.** -/
def significant (text : List Char) : List Char :=
  (linesOf text).flatMap fun line => (codeOf line).filter fun c => !isBlank c

section Lines

variable {a b rest : List Char} {c : Char}

/-- What has no line break stands in front of the first line of the rest. -/
theorem linesOf_append (h : '\n' ∉ a) (rest : List Char) :
    ∃ more, linesOf rest = restOfLine rest :: more ∧
      linesOf (a ++ rest) = (a ++ restOfLine rest) :: more := by
  obtain ⟨more, hmore⟩ := linesOf_first rest
  refine ⟨more, hmore, ?_⟩
  induction a with
  | nil => exact hmore
  | cons c a ih =>
    rw [List.mem_cons, not_or] at h
    have hc : ¬ (c == '\n') = true := fun heq => h.1 (beq_iff_eq.mp heq).symm
    rw [List.cons_append, linesOf, List.splitOn_cons_eq_if_modifyHead, if_neg hc, ← linesOf, ih h.2]
    rfl

theorem restOfLine_break (rest : List Char) : restOfLine ('\n' :: rest) = [] := rfl

/-- Behind a line stands a line break, or nothing. -/
theorem restOfLine_afterLine (text : List Char) : restOfLine (afterLine text) = [] := by
  have hhead := List.head?_dropWhile_not (· != '\n') text
  rw [← afterLine] at hhead
  cases hafter : afterLine text with
  | nil => rfl
  | cons c rest =>
    rw [hafter] at hhead
    have hc : c = '\n' := by simpa using hhead
    rw [hc, restOfLine_break]

theorem opensComment_append (h : opensComment a = true) : opensComment (a ++ b) = true := by
  unfold opensComment at h
  split at h
  · rfl
  · cases h

theorem codeOf_opens (h : opensComment (c :: rest) = true) : codeOf (c :: rest) = [] := if_pos h

theorem codeOf_cons (h : opensComment (c :: rest) = false) :
    codeOf (c :: rest) = c :: codeOf rest :=
  if_neg (by rw [h]; decide)

theorem codeOf_append (h : ∀ x ∈ a, x ≠ '/') : codeOf (a ++ rest) = a ++ codeOf rest := by
  induction a with
  | nil => rfl
  | cons c a ih =>
    rw [List.forall_mem_cons] at h
    rw [List.cons_append, codeOf_cons (opensComment_of_ne h.1 _), ih h.2]
    rfl

theorem significant_break (rest : List Char) : significant ('\n' :: rest) = significant rest := by
  have hlines : linesOf ('\n' :: rest) = [] :: linesOf rest :=
    linesOf_break List.not_mem_nil rest
  rw [significant, hlines, List.flatMap_cons]
  rfl

/-- What stands in front of the rest of a text, on one line with its beginning. -/
theorem significant_append (h : '\n' ∉ a) {kept : List Char}
    (hkept : (codeOf (a ++ restOfLine rest)).filter (fun c => !isBlank c) =
      kept ++ (codeOf (restOfLine rest)).filter fun c => !isBlank c) :
    significant (a ++ rest) = kept ++ significant rest := by
  obtain ⟨more, hrest, hlines⟩ := linesOf_append h rest
  rw [significant, significant, hrest, hlines, List.flatMap_cons, List.flatMap_cons, hkept,
    List.append_assoc]

end Lines

end RegisterMachine.Text

namespace RegisterMachine

open RegisterMachine.Text

/-! ### Places and what stands there -/

namespace Span

/-- **What stands at the place**, on one line of the text. -/
def Spells (text : List Char) (s : Span) (lexeme : List Char) : Prop :=
  s.length = lexeme.length ∧ ∃ line, 1 ≤ s.line ∧ (linesOf text)[s.line - 1]? = some line ∧
    1 ≤ s.column ∧ (line.drop (s.column - 1)).take s.length = lexeme

/-- The place ends where the other begins, or in front of it. -/
def Before (s s' : Span) : Prop :=
  s.line < s'.line ∨ s.line = s'.line ∧ s.column + s.length ≤ s'.column

/-- The place has a character in this line and column. -/
def Covers (s : Span) (line column : Nat) : Prop :=
  s.line = line ∧ s.column ≤ column ∧ column < s.column + s.length

end Span

/-- What is read from the cursor on stands there. -/
theorem Cursor.At.spells {text lexeme rest : List Char} {p : Cursor}
    (h : At text p (lexeme ++ rest)) (hline : '\n' ∉ lexeme) :
    (p.span lexeme.length).Spells text lexeme := by
  obtain ⟨before, hpositive, hrow, hcolumn⟩ := h.line
  have hrest : restOfLine (lexeme ++ rest) = lexeme ++ restOfLine rest :=
    List.takeWhile_append_of_pos fun x hx => bne_iff_ne.mpr fun heq => hline (heq ▸ hx)
  refine ⟨rfl, _, hpositive, hrow, ?_, ?_⟩
  · show 1 ≤ p.column
    omega
  · show (List.drop (p.column - 1) _).take lexeme.length = lexeme
    rw [hcolumn, hrest, Nat.add_sub_cancel, List.drop_left, List.take_left]

/-- A lexeme with its place. -/
abbrev Piece := Span × List Char

/-- **Nothing of the text is lost**: the lexemes stand at their places, one behind the other; what
is not in their places is blank, or it stands where a comment begins or behind that; and they are
what is left of the text without comments and blanks. -/
structure Lossless (text : List Char) (pieces : List Piece) : Prop where
  spelled : ∀ x ∈ pieces, x.2 ≠ [] ∧ x.1.Spells text x.2
  ordered : pieces.Pairwise fun x y => x.1.Before y.1
  skipped : ∀ row chars column c, (linesOf text)[row]? = some chars → chars[column]? = some c →
    (∃ x ∈ pieces, x.1.Covers (row + 1) (column + 1)) ∨ isBlank c = true ∨
      ∃ k ≤ column, opensComment (chars.drop k) = true
  kept : pieces.flatMap Prod.snd = significant text

/-! ### Texts that are taken apart -/

/-- **The text is laid out in these lexemes** from the cursor on. A comment may begin in front of a
lexeme, but neither in it nor at its last character. -/
inductive Laid : Cursor → List Char → List Piece → Prop
  | nil (p : Cursor) : Laid p [] []
  | blank {p : Cursor} {c : Char} {text : List Char} {pieces : List Piece}
    (blank : isBlank c = true) (rest : Laid (p.next c) text pieces) : Laid p (c :: text) pieces
  | comment {p : Cursor} {c : Char} {text : List Char} {pieces : List Piece}
    (solid : isBlank c = false) (opens : opensComment (c :: text) = true)
    (rest : Laid (p.skip (restOfLine text).length.succ) (afterLine text) pieces) :
    Laid p (c :: text) pieces
  | lexeme {p : Cursor} {c : Char} {cs text : List Char} {pieces : List Piece}
    (solid : isBlank c = false) (code : opensComment (c :: (cs ++ text)) = false)
    (inner : ∀ x ∈ cs, isBlank x = false ∧ x ≠ '/')
    (rest : Laid (p.skip (c :: cs).length) text pieces) :
    Laid p (c :: (cs ++ text)) ((p.span (c :: cs).length, c :: cs) :: pieces)

theorem not_mem_of_solid {l : List Char} (h : ∀ x ∈ l, isBlank x = false) : '\n' ∉ l :=
  fun hmem => absurd (h _ hmem) (by decide)

/-- **The characters from the cursor on** are in the places of the lexemes, blank, or in
comments. -/
def Skips (p : Cursor) (text : List Char) (pieces : List Piece) : Prop :=
  ∀ row chars column c, (linesOf text)[row]? = some chars → chars[column]? = some c →
    (∃ x ∈ pieces, x.1.Covers (p.line + row) (if row = 0 then p.column + column else column + 1)) ∨
      isBlank c = true ∨ ∃ k ≤ column, opensComment (chars.drop k) = true

section Skips

variable {p : Cursor} {a rest : List Char} {pieces more : List Piece}

/-- At the beginning of a line all columns are counted from one. -/
theorem Skips.of_start {n row column : Nat} {chars : List Char} {c : Char}
    (h : Skips ⟨n, 1⟩ rest pieces) (hline : (linesOf rest)[row]? = some chars)
    (hc : chars[column]? = some c) :
    (∃ x ∈ pieces, x.1.Covers (n + row) (column + 1)) ∨ isBlank c = true ∨
      ∃ k ≤ column, opensComment (chars.drop k) = true := by
  have hcolumn : (if row = 0 then 1 + column else column + 1) = column + 1 := by
    split <;> omega
  have hskips := h row chars column c hline hc
  rwa [hcolumn] at hskips

theorem Skips.break (h : Skips ⟨p.line + 1, 1⟩ rest pieces) : Skips p ('\n' :: rest) pieces := by
  have hlines : linesOf ('\n' :: rest) = [] :: linesOf rest :=
    linesOf_break List.not_mem_nil rest
  intro row chars column c hline hc
  rw [hlines] at hline
  cases row with
  | zero =>
    cases hline
    cases hc
  | succ row =>
    have hrow := h.of_start hline hc
    rwa [Nat.add_assoc, Nat.add_comm 1 row] at hrow

/-- The characters in front of the rest are looked at one by one. -/
theorem Skips.append (h : Skips (p.skip a.length) rest pieces) (ha : '\n' ∉ a)
    (hpieces : ∀ x ∈ pieces, x ∈ more)
    (hfront : ∀ column c, a[column]? = some c →
      (∃ x ∈ more, x.1.Covers p.line (p.column + column)) ∨ isBlank c = true ∨
        ∃ k ≤ column, opensComment ((a ++ restOfLine rest).drop k) = true) :
    Skips p (a ++ rest) more := by
  obtain ⟨following, hrest, hlines⟩ := linesOf_append ha rest
  intro row chars column c hline hc
  rw [hlines] at hline
  cases row with
  | succ row =>
    obtain ⟨x, hx, hcovers⟩ | hskipped := h (row + 1) chars column c (by rw [hrest]; exact hline) hc
    · exact .inl ⟨x, hpieces x hx, hcovers⟩
    · exact .inr hskipped
  | zero =>
    cases hline
    by_cases hlt : column < a.length
    · rw [List.getElem?_append_left hlt] at hc
      exact hfront column c hc
    · rw [List.getElem?_append_right (Nat.not_lt.mp hlt)] at hc
      obtain ⟨x, hx, hcovers⟩ | hblank | ⟨k, hk, hopens⟩ :=
        h 0 _ (column - a.length) c (by rw [hrest]; rfl) hc
      · refine .inl ⟨x, hpieces x hx, ?_⟩
        have hcolumn : p.column + a.length + (column - a.length) = p.column + column := by omega
        rwa [if_pos rfl, Cursor.skip, hcolumn] at hcovers
      · exact .inr (.inl hblank)
      · refine .inr (.inr ⟨a.length + k, by omega, ?_⟩)
        rwa [List.drop_length_add_append]

end Skips

namespace Laid

variable {p : Cursor} {text : List Char} {pieces : List Piece}

theorem not_mem_lexeme {c : Char} {cs : List Char} (hsolid : isBlank c = false)
    (hinner : ∀ x ∈ cs, isBlank x = false ∧ x ≠ '/') : '\n' ∉ c :: cs :=
  not_mem_of_solid (List.forall_mem_cons.mpr ⟨hsolid, fun x hx => (hinner x hx).1⟩)

/-- A comment opens with the first two characters of its line. -/
theorem opensComment_restOfLine {c : Char} (h : opensComment (c :: text) = true) :
    opensComment (c :: restOfLine text) = true := by
  unfold opensComment at h
  split at h
  · rename_i heq
    cases heq
    rfl
  · cases h

/-- The whole of a comment. -/
theorem restOfLine_comment {c : Char} (hsolid : isBlank c = false) (text : List Char) :
    '\n' ∉ c :: restOfLine text ∧ c :: text = c :: restOfLine text ++ afterLine text := by
  refine ⟨?_, by rw [List.cons_append, restOfLine_append_afterLine]⟩
  rw [List.mem_cons, not_or]
  exact ⟨Ne.symm (ne_break_of_not_blank (by simp [hsolid])), not_mem_restOfLine text⟩

theorem skips (h : Laid p text pieces) : Skips p text pieces := by
  induction h with
  | nil p =>
    intro row chars column c hline hc
    cases row with
    | zero =>
      cases hline
      cases hc
    | succ row => cases hline
  | @blank p c text pieces hblank _ ih =>
    by_cases hc : c = '\n'
    · subst hc
      exact ih.break
    · rw [Cursor.next, if_neg hc] at ih
      refine Skips.append (a := [c]) ih (by simpa using Ne.symm hc) (fun _ hx => hx) ?_
      intro column d hd
      cases column with
      | zero =>
        cases hd
        exact .inr (.inl hblank)
      | succ column => cases hd
  | @comment p c text pieces hsolid hopens _ ih =>
    obtain ⟨hline, htext⟩ := restOfLine_comment hsolid text
    rw [htext]
    refine Skips.append ih hline (fun _ hx => hx) fun column d hd => .inr (.inr ?_)
    rw [restOfLine_afterLine, List.append_nil]
    exact ⟨0, Nat.zero_le column, opensComment_restOfLine hopens⟩
  | @lexeme p c cs text pieces hsolid _ hinner _ ih =>
    refine Skips.append (a := c :: cs) ih (not_mem_lexeme hsolid hinner)
      (fun _ hx => List.mem_cons_of_mem _ hx) fun column d hd => ?_
    obtain ⟨hlt, -⟩ := List.getElem?_eq_some_iff.mp hd
    exact .inl ⟨_, List.mem_cons_self, rfl, Nat.le_add_right .., Nat.add_lt_add_left hlt _⟩

/-- **The lexemes are the text** without its comments and blanks. -/
theorem kept (h : Laid p text pieces) : pieces.flatMap Prod.snd = significant text := by
  induction h with
  | nil p => rfl
  | @blank p c text pieces hblank _ ih =>
    by_cases hc : c = '\n'
    · rw [hc, significant_break, ih]
    · have hslash : ∀ x ∈ [c], x ≠ '/' := by
        rintro x hx rfl
        rw [← List.mem_singleton.mp hx] at hblank
        exact absurd hblank (by decide)
      have hsignificant : significant ([c] ++ text) = [] ++ significant text := by
        refine significant_append (by simpa using Ne.symm hc) ?_
        rw [codeOf_append hslash, List.filter_append]
        simp [hblank]
      rw [ih]
      exact hsignificant.symm
  | @comment p c text pieces hsolid hopens _ ih =>
    obtain ⟨hline, htext⟩ := restOfLine_comment hsolid text
    have hsignificant : significant (c :: restOfLine text ++ afterLine text) =
        [] ++ significant (afterLine text) := by
      refine significant_append hline ?_
      rw [restOfLine_afterLine, List.append_nil, codeOf_opens (opensComment_restOfLine hopens)]
      rfl
    rw [htext, hsignificant, ih]
    rfl
  | @lexeme p c cs text pieces hsolid hcode hinner _ ih =>
    have hfirst : opensComment (c :: (cs ++ restOfLine text)) = false := by
      rw [Bool.eq_false_iff] at hcode ⊢
      intro hopens
      refine hcode ?_
      rw [← restOfLine_append_afterLine text, ← List.append_assoc, ← List.cons_append]
      exact opensComment_append hopens
    have hsignificant : significant (c :: cs ++ text) = c :: cs ++ significant text := by
      refine significant_append (not_mem_lexeme hsolid hinner) ?_
      rw [List.cons_append, codeOf_cons hfirst, codeOf_append fun x hx => (hinner x hx).2,
        ← List.cons_append, List.filter_append]
      congr 1
      rw [List.filter_eq_self, List.forall_mem_cons]
      exact ⟨by simp [hsolid], fun x hx => by simp [(hinner x hx).1]⟩
    rw [List.flatMap_cons, ih]
    exact hsignificant.symm

/-- The lexemes are not in front of the cursor. -/
theorem behind (h : Laid p text pieces) : ∀ x ∈ pieces, (p.span 0).Before x.1 := by
  induction h with
  | nil p => exact List.forall_mem_nil _
  | @blank p c text pieces _ _ ih =>
    intro x hx
    have hbefore := ih x hx
    unfold Cursor.next at hbefore
    split at hbefore <;> simp only [Span.Before, Cursor.span] at hbefore ⊢ <;> omega
  | @comment p c text pieces _ _ _ ih =>
    intro x hx
    have hbefore := ih x hx
    simp only [Span.Before, Cursor.span, Cursor.skip] at hbefore ⊢
    omega
  | @lexeme p c cs text pieces _ _ _ _ ih =>
    refine List.forall_mem_cons.mpr ⟨.inr ⟨rfl, Nat.le_refl _⟩, fun x hx => ?_⟩
    have hbefore := ih x hx
    simp only [Span.Before, Cursor.span, Cursor.skip] at hbefore ⊢
    omega

theorem ordered (h : Laid p text pieces) : pieces.Pairwise fun x y => x.1.Before y.1 := by
  induction h with
  | nil p => exact .nil
  | blank _ _ ih | comment _ _ _ ih => exact ih
  | lexeme _ _ _ rest ih => exact List.pairwise_cons.mpr ⟨rest.behind, ih⟩

/-- **The lexemes stand at their places.** -/
theorem spelled {whole : List Char} (h : Laid p text pieces) (hat : Cursor.At whole p text) :
    ∀ x ∈ pieces, x.2 ≠ [] ∧ x.1.Spells whole x.2 := by
  induction h with
  | nil p => exact List.forall_mem_nil _
  | blank _ _ ih => exact ih hat.next
  | comment hsolid _ _ ih => exact ih (hat.comment (ne_break_of_not_blank (by simp [hsolid])))
  | @lexeme p c cs text pieces hsolid _ hinner _ ih =>
    have hline := not_mem_lexeme hsolid hinner
    rw [← List.cons_append] at hat
    exact List.forall_mem_cons.mpr ⟨⟨List.cons_ne_nil c cs, hat.spells hline⟩, ih (hat.skip hline)⟩

/-- **Nothing is lost** of a text that is laid out from its beginning. -/
theorem lossless (h : Laid {} text pieces) : Lossless text pieces where
  spelled := h.spelled (Cursor.At.start text)
  ordered := h.ordered
  skipped row chars column c hline hc := by
    have hskips := Skips.of_start h.skips hline hc
    rwa [Nat.add_comm 1 row] at hskips
  kept := h.kept

end Laid

end RegisterMachine
