import RegisterMachine.Proofs.Success
import RegisterMachine.Proofs.Text.Layout

/-! # Reading lexeme by lexeme

Both languages are read in one way: blanks and comments are passed over, and a lexeme is read where
neither stands. They differ in how a single lexeme is read, and agree in what can be said of that: a
lexeme goes no further than a blank, it is the same lexeme at every place, and it would be read just
so if it stood alone.

* `Reader`, `Reader.Lawful`: how lexemes are read, and the laws of it.
* `Reader.Scans`: what a text comes to, one rule for what can stand in front.
* `Scans.laid`: the text is laid out in its lexemes.
* `Scans.spaced`, `Scans.reread`: lexemes with blanks between them are read again.
* `Scans.append_break`, `Scans.down`: reading line by line, and further down.
* `Scans.joined`: two texts, one below the other; `Scans.break`: a line break at the end. -/

namespace RegisterMachine

open RegisterMachine.Text RegisterMachine.Success

/-- So many lines and columns further on. -/
def Span.shift (lines columns : Nat) (s : Span) : Span :=
  ⟨s.line + lines, s.column + columns, s.length⟩

def Cursor.shift (lines columns : Nat) (p : Cursor) : Cursor :=
  ⟨p.line + lines, p.column + columns⟩

/-- **So many lines further down.** -/
def Span.down (lines : Nat) (s : Span) : Span := { s with line := s.line + lines }

namespace Text

/-- What a row goes on to does not matter behind an entry that ends the row. -/
theorem takeWhile_parted {p : Char → Bool} {b : Char} (hb : p b = false) (text rest : List Char) :
    (text ++ b :: rest).takeWhile p = text.takeWhile p ∧
      (text ++ b :: rest).dropWhile p = text.dropWhile p ++ b :: rest := by
  induction text with
  | nil => simp [hb]
  | cons c text ih =>
    by_cases hc : p c = true
    · simp [hc, ih.1, ih.2]
    · simp [hc]

section Comments

variable {b c : Char} {cs rest : List Char}

theorem opensComment_cons (c : Char) (text : List Char) :
    opensComment (c :: text) = (c == '/' && text.head? == some '/') := by
  unfold opensComment
  split
  · rename_i heq
    cases heq
    rfl
  · rename_i hne
    cases text with
    | nil => simp
    | cons d text =>
      symm
      rw [Bool.eq_false_iff]
      intro h
      simp only [Bool.and_eq_true, beq_iff_eq, List.head?_cons, Option.some.injEq] at h
      exact hne text (by rw [h.1, h.2])

/-- **A comment does not open across a character** that is no slash. -/
theorem opensComment_parted (hb : b ≠ '/') (c : Char) (text rest : List Char) :
    opensComment (c :: (text ++ b :: rest)) = opensComment (c :: text) := by
  rw [opensComment_cons, opensComment_cons]
  cases text with
  | nil => simp [hb]
  | cons d text => rfl

theorem opensComment_inner (hinner : ∀ x ∈ cs, isBlank x = false ∧ x ≠ '/')
    (hrest : rest.head? ≠ some '/') : opensComment (c :: (cs ++ rest)) = false := by
  rw [opensComment_cons]
  cases cs with
  | nil => simp [hrest]
  | cons d cs => simp [(hinner d List.mem_cons_self).2]

end Comments

/-- **How lexemes are read.** -/
structure Reader (τ ε : Type) where
  /-- The token of the lexeme that opens with a character, and the text behind the lexeme. -/
  read : Cursor → Char → List Char → Except ε (τ × List Char)
  span : τ → Span
  raw : τ → String
  /-- The token with its place changed. -/
  place : (Span → Span) → τ → τ
  /-- The error with its place changed. -/
  placeError : (Span → Span) → ε → ε

namespace Reader

variable {τ ε : Type} (r : Reader τ ε)

/-- The lexeme of a token with its place. -/
def piece (t : τ) : Piece := (r.span t, (r.raw t).toList)

/-- The token without its place. -/
def bare (t : τ) : τ := r.place (fun _ => {}) t

/-- The places of what was read are changed. -/
def placed {α : Type} (place : α → α) (f : Span → Span) (x : Except ε α) : Except ε α :=
  (x.map place).mapError (r.placeError f)

/-- Rows of tokens with their places changed. -/
def placedAll (f : Span → Span) (x : Except ε (List τ)) : Except ε (List τ) :=
  r.placed (List.map (r.place f)) f x

/-- **The token is that of the lexeme**: it has its text and its place, there are no blanks and no
slashes behind its first character, and it is read just so if the lexeme stands alone. -/
structure Takes (p : Cursor) (c : Char) (cs : List Char) (t : τ) : Prop where
  raw : (r.raw t).toList = c :: cs
  span : r.span t = p.span (c :: cs).length
  inner : ∀ x ∈ cs, isBlank x = false ∧ x ≠ '/'
  alone : r.read p c cs = .ok (t, [])

theorem Takes.length {r : Reader τ ε} {p : Cursor} {c : Char} {cs : List Char} {t : τ}
    (h : r.Takes p c cs t) : (r.span t).length = (c :: cs).length := by
  rw [h.span]
  rfl

/-- **What the languages have in common.** -/
structure Lawful : Prop where
  lexeme : ∀ {p c text t left}, isBlank c = false → r.read p c text = .ok (t, left) →
    ∃ cs, text = cs ++ left ∧ r.Takes p c cs t
  /-- A blank ends a lexeme just as the end of the text does. -/
  parted : ∀ {b}, isBlank b = true → ∀ p c text rest, r.read p c (text ++ b :: rest) =
    (r.read p c text).map (Prod.map id (· ++ b :: rest))
  /-- What is read does not depend on the place. -/
  shifted : ∀ lines columns p c text, r.read (p.shift lines columns) c text =
    r.placed (Prod.map (r.place (Span.shift lines columns)) id) (Span.shift lines columns)
      (r.read p c text)
  place_place : ∀ f g t, r.place f (r.place g t) = r.place (f ∘ g) t
  span_place : ∀ f t, r.span (r.place f t) = f (r.span t)

/-- **What a text comes to**, from the cursor on. -/
inductive Scans : Cursor → List Char → Except ε (List τ) → Prop
  | done (p : Cursor) : Scans p [] (.ok [])
  | blank {p c text result} (blank : isBlank c = true) (rest : Scans (p.next c) text result) :
    Scans p (c :: text) result
  | comment {p c text result} (solid : isBlank c = false) (opens : opensComment (c :: text) = true)
    (rest : Scans (p.skip (restOfLine text).length.succ) (afterLine text) result) :
    Scans p (c :: text) result
  | refused {p c text e} (solid : isBlank c = false) (code : opensComment (c :: text) = false)
    (read : r.read p c text = .error e) : Scans p (c :: text) (.error e)
  | lexeme {p c text t left result} (solid : isBlank c = false)
    (code : opensComment (c :: text) = false) (read : r.read p c text = .ok (t, left))
    (rest : Scans (p.skip (r.span t).length) left result) :
    Scans p (c :: text) (result.map (t :: ·))

variable {r}

/-- A text comes to one result. -/
theorem Scans.unique {p : Cursor} {text : List Char} {x y : Except ε (List τ)}
    (hx : r.Scans p text x) (hy : r.Scans p text y) : x = y := by
  induction hx generalizing y with
  | done p =>
    cases hy
    rfl
  | blank hblank _ ih =>
    cases hy with
    | blank _ rest => exact ih rest
    | comment hsolid | refused hsolid | lexeme hsolid =>
      rw [hblank] at hsolid
      cases hsolid
  | comment hsolid hopens _ ih =>
    cases hy with
    | blank hblank =>
      rw [hblank] at hsolid
      cases hsolid
    | comment _ _ rest => exact ih rest
    | refused _ hcode | lexeme _ hcode =>
      rw [hopens] at hcode
      cases hcode
  | refused hsolid hcode hread =>
    cases hy with
    | blank hblank =>
      rw [hblank] at hsolid
      cases hsolid
    | comment _ hopens =>
      rw [hopens] at hcode
      cases hcode
    | refused _ _ hread' =>
      cases hread.symm.trans hread'
      rfl
    | lexeme _ _ hread' => cases hread.symm.trans hread'
  | lexeme hsolid hcode hread _ ih =>
    cases hy with
    | blank hblank =>
      rw [hblank] at hsolid
      cases hsolid
    | comment _ hopens =>
      rw [hopens] at hcode
      cases hcode
    | refused _ _ hread' => cases hread.symm.trans hread'
    | lexeme _ _ hread' rest =>
      cases hread.symm.trans hread'
      rw [ih rest]

/-! ### Where tokens and errors come from -/

/-- **Each token is read somewhere in the text**, and so is the error. -/
theorem Scans.outcome (hr : r.Lawful) {whole : List Char} {p : Cursor} {text : List Char}
    {x : Except ε (List τ)} (h : r.Scans p text x) : Cursor.At whole p text →
      Outcome (fun e => ∃ q c more, r.read q c more = .error e)
        (fun ts => ∀ t ∈ ts, ∃ q c more left, Cursor.At whole q (c :: more) ∧ isBlank c = false ∧
          opensComment (c :: more) = false ∧ r.read q c more = .ok (t, left)) x := by
  induction h with
  | done p => exact fun _ => List.forall_mem_nil _
  | blank _ _ ih => exact fun hat => ih hat.next
  | comment hsolid _ _ ih =>
    exact fun hat => ih (hat.comment (ne_break_of_not_blank (by simp [hsolid])))
  | refused _ _ hread => exact fun _ => ⟨_, _, _, hread⟩
  | @lexeme p c text t left result hsolid hcode hread _ ih =>
    intro hat
    obtain ⟨cs, rfl, htakes⟩ := hr.lexeme hsolid hread
    have hline := Laid.not_mem_lexeme hsolid htakes.inner
    have hleft : Cursor.At whole (p.skip (r.span t).length) left := by
      rw [htakes.span]
      exact Cursor.At.skip hat hline
    refine (ih hleft).map fun ts hts => List.forall_mem_cons.mpr ⟨?_, hts⟩
    exact ⟨p, c, _, left, hat, hsolid, hcode, hread⟩

/-- **The text is laid out in its lexemes.** -/
theorem Scans.laid (hr : r.Lawful) {p : Cursor} {text : List Char} {x : Except ε (List τ)}
    (h : r.Scans p text x) : ∀ {ts}, x = .ok ts → Laid p text (ts.map r.piece) := by
  induction h with
  | done p =>
    intro ts hts
    cases hts
    exact .nil p
  | blank hblank _ ih => exact fun hts => .blank hblank (ih hts)
  | comment hsolid hopens _ ih => exact fun hts => .comment hsolid hopens (ih hts)
  | refused => intro ts hts; cases hts
  | @lexeme p c text t left result hsolid hcode hread _ ih =>
    intro ts hts
    obtain ⟨rest, hrest, rfl⟩ := map_ok hts
    obtain ⟨cs, rfl, htakes⟩ := hr.lexeme hsolid hread
    have hlaid := ih hrest
    have hpiece : r.piece t = (p.span (c :: cs).length, c :: cs) := by
      rw [piece, htakes.span, htakes.raw]
    rw [htakes.span] at hlaid
    rw [List.map_cons, hpiece]
    exact .lexeme hsolid hcode htakes.inner hlaid

/-! ### Reading lexemes again -/

/-- The lexeme is the same at another place. -/
theorem Lawful.elsewhere (hr : r.Lawful) {p : Cursor} {c : Char} {text left : List Char} {t : τ}
    (h : r.read p c text = .ok (t, left)) (q : Cursor) :
    ∃ t', r.read q c text = .ok (t', left) ∧ r.bare t' = r.bare t := by
  have hplaces : ∀ q : Cursor, (⟨0, 0⟩ : Cursor).shift q.line q.column = q := fun q => by
    simp [Cursor.shift]
  have hp := hr.shifted p.line p.column ⟨0, 0⟩ c text
  have hq := hr.shifted q.line q.column ⟨0, 0⟩ c text
  rw [hplaces] at hp hq
  rw [hp] at h
  obtain ⟨⟨t₀, left₀⟩, hstart, heq⟩ := map_ok (mapError_ok h)
  cases heq
  refine ⟨_, by rw [hq, hstart]; rfl, ?_⟩
  rw [bare, bare, hr.place_place, hr.place_place]
  rfl

/-- **Lexemes with blanks between them are read again.** -/
theorem Scans.spaced (hr : r.Lawful) {p : Cursor} {text : List Char} {x : Except ε (List τ)}
    (h : r.Scans p text x) : ∀ {ts}, x = .ok ts → ∀ q, ∃ ts',
      r.Scans q ([' '].intercalate (ts.map fun t => (r.raw t).toList)) (.ok ts') ∧
        ts'.map r.bare = ts.map r.bare := by
  induction h with
  | done p =>
    intro ts hts q
    cases hts
    exact ⟨[], .done q, rfl⟩
  | blank _ _ ih | comment _ _ _ ih => exact ih
  | refused => intro ts hts; cases hts
  | @lexeme p c text t left result hsolid hcode hread _ ih =>
    intro ts hts q
    obtain ⟨rest, hrest, rfl⟩ := map_ok hts
    obtain ⟨cs, rfl, htakes⟩ := hr.lexeme hsolid hread
    obtain ⟨t', hread', hbare⟩ := hr.elsewhere htakes.alone q
    cases rest with
    | nil =>
      refine ⟨[t'], ?_, by rw [List.map_singleton, List.map_singleton, hbare]⟩
      have hcode' : opensComment (c :: (cs ++ [])) = false := opensComment_inner htakes.inner nofun
      rw [List.append_nil] at hcode'
      rw [List.map_singleton, List.intercalate_singleton, htakes.raw]
      exact .lexeme hsolid hcode' hread' (.done _)
    | cons u rest =>
      obtain ⟨ts', hscans, hrests⟩ := ih hrest ((q.skip (r.span t').length).next ' ')
      refine ⟨t' :: ts', ?_, by rw [List.map_cons, hbare, hrests, ← List.map_cons]⟩
      rw [List.map_cons, List.map_cons, List.intercalate_cons_cons, htakes.raw]
      rw [List.map_cons] at hscans
      generalize [' '].intercalate ((r.raw u).toList :: rest.map fun t => (r.raw t).toList) = more
        at hscans ⊢
      have hparted := hr.parted (b := ' ') (by decide) q c cs more
      rw [hread'] at hparted
      rw [List.append_assoc, List.singleton_append, List.cons_append]
      exact .lexeme hsolid (opensComment_inner htakes.inner (by simp)) hparted
        (.blank (by decide) hscans)

/-- **The lexemes of a text are read again** as the same tokens, at other places. -/
theorem Scans.reread (hr : r.Lawful) {p : Cursor} {text : List Char} {ts : List τ}
    (h : r.Scans p text (.ok ts)) : ∃ again,
      r.Scans {} (" ".intercalate (ts.map r.raw)).toList (.ok again) ∧
        again.map r.bare = ts.map r.bare := by
  rw [String.toList_intercalate, List.map_map]
  exact h.spaced hr rfl {}

/-! ### Reading line by line -/

/-- The rest of the line is the same with a line break behind the text. -/
theorem line_break (text rest : List Char) :
    restOfLine (text ++ '\n' :: rest) = restOfLine text ∧
      afterLine (text ++ '\n' :: rest) = afterLine text ++ '\n' :: rest :=
  takeWhile_parted (by decide) text rest

/-- **A text is read line by line**: behind a line break reading goes on as if nothing had been
read. -/
theorem Scans.append_break (hr : r.Lawful) {p : Cursor} {s t : List Char}
    {x y : Except ε (List τ)} (hx : r.Scans p s x) :
    r.Scans ((p.after s).next '\n') t y →
      r.Scans p (s ++ '\n' :: t) (x >>= fun first => y.map (first ++ ·)) := by
  induction hx with
  | done p =>
    intro hy
    have hresult : (Except.ok [] >>= fun first => y.map (first ++ ·)) = y := by
      cases y <;> rfl
    rw [hresult]
    exact .blank (by decide) hy
  | blank hblank _ ih => exact fun hy => .blank hblank (ih hy)
  | @comment p c s x hsolid hopens _ ih =>
    intro hy
    obtain ⟨hline, htext⟩ := Laid.restOfLine_comment hsolid s
    rw [htext, Cursor.after_append, Cursor.after_of_no_break hline] at hy
    obtain ⟨hrest, hafter⟩ := line_break s t
    rw [List.cons_append]
    refine .comment hsolid ((opensComment_parted (by decide) c s t).trans hopens) ?_
    rw [hrest, hafter]
    exact ih hy
  | @refused p c s e hsolid hcode hread =>
    intro hy
    have hparted := hr.parted (b := '\n') (by decide) p c s t
    rw [hread] at hparted
    exact .refused hsolid ((opensComment_parted (by decide) c s t).trans hcode) hparted
  | @lexeme p c s u left x hsolid hcode hread _ ih =>
    intro hy
    have hparted := hr.parted (b := '\n') (by decide) p c s t
    rw [hread] at hparted
    obtain ⟨cs, rfl, htakes⟩ := hr.lexeme hsolid hread
    have hline := Laid.not_mem_lexeme hsolid htakes.inner
    rw [← List.cons_append, Cursor.after_append, Cursor.after_of_no_break hline,
      ← htakes.length] at hy
    have hcode' := (opensComment_parted (b := '\n') (by decide) c _ t).trans hcode
    have hscans := Scans.lexeme hsolid hcode' hparted (ih hy)
    have hresult : (x.map (u :: ·) >>= fun first => y.map (first ++ ·)) =
        (x >>= fun first => y.map (first ++ ·)).map (u :: ·) := by
      cases x with
      | error e => rfl
      | ok first => cases y <;> rfl
    rw [hresult]
    exact hscans

theorem shift_next (p : Cursor) (c : Char) (lines : Nat) :
    (p.shift lines 0).next c = (p.next c).shift lines 0 := by
  unfold Cursor.next
  split
  · simp [Cursor.shift, Nat.add_right_comm]
  · rfl

/-- **A text further down** comes to the same, further down. -/
theorem Scans.down (hr : r.Lawful) (lines : Nat) {p : Cursor} {text : List Char}
    {x : Except ε (List τ)} (h : r.Scans p text x) :
    r.Scans (p.shift lines 0) text (r.placedAll (Span.down lines) x) := by
  induction h with
  | done p => exact .done _
  | @blank p c text result hblank _ ih =>
    refine .blank hblank ?_
    rw [shift_next]
    exact ih
  | @comment p c text result hsolid hopens _ ih => exact .comment hsolid hopens ih
  | @refused p c text e hsolid hcode hread =>
    refine .refused hsolid hcode ?_
    rw [hr.shifted, hread]
    rfl
  | @lexeme p c text t left result hsolid hcode hread _ ih =>
    have hplaced : r.read (p.shift lines 0) c text =
        .ok (r.place (Span.down lines) t, left) := by
      rw [hr.shifted, hread]
      rfl
    have hresult : r.placedAll (Span.down lines) (result.map (t :: ·)) =
        (r.placedAll (Span.down lines) result).map (r.place (Span.down lines) t :: ·) := by
      cases result <;> rfl
    rw [hresult]
    refine .lexeme hsolid hcode hplaced ?_
    rw [hr.span_place]
    exact ih

/-- **What one text comes to and then another**, which begins so many lines further down. -/
def joined (r : Reader τ ε) (lines : Nat) :
    Except ε (List τ) → Except ε (List τ) → Except ε (List τ)
  | .error e, _ => .error e
  | .ok first, .ok second => .ok (first ++ second.map (r.place (Span.down lines)))
  | .ok _, .error e => .error (r.placeError (Span.down lines) e)

/-- The cursor goes down by the line breaks. -/
theorem after_line (p : Cursor) (text : List Char) :
    (p.after text).line = p.line + text.count '\n' := by
  induction text generalizing p with
  | nil => rfl
  | cons c text ih =>
    rw [Cursor.after, List.foldl_cons, ← Cursor.after, ih, Cursor.next, List.count_cons]
    by_cases hc : c = '\n'
    · simp only [hc, beq_self_eq_true, if_true]
      omega
    · simp [hc]

/-- **Texts one below the other.** -/
theorem Scans.joined (hr : r.Lawful) {s t : List Char} {x y : Except ε (List τ)}
    (hx : r.Scans {} s x) (hy : r.Scans {} t y) :
    r.Scans {} (s ++ '\n' :: t) (r.joined (s.count '\n' + 1) x y) := by
  have hplace : (({} : Cursor).after s).next '\n' = ({} : Cursor).shift (s.count '\n' + 1) 0 := by
    rw [Cursor.next, if_pos rfl, after_line, Nat.add_assoc]
    rfl
  have hjoined :
      (x >>= fun first => (r.placedAll (Span.down (s.count '\n' + 1)) y).map (first ++ ·)) =
        r.joined (s.count '\n' + 1) x y := by
    cases x with
    | error e => rfl
    | ok first => cases y <;> rfl
  have hdown := hy.down hr (s.count '\n' + 1)
  rw [← hplace] at hdown
  rw [← hjoined]
  exact hx.append_break hr hdown

/-- **A line break at the end changes nothing.** -/
theorem Scans.break (hr : r.Lawful) {text : List Char} {x : Except ε (List τ)}
    (h : r.Scans {} text x) : r.Scans {} (text ++ ['\n']) x := by
  have hjoined : r.joined (text.count '\n' + 1) x (.ok []) = x := by
    cases x with
    | error e => rfl
    | ok first => rw [Reader.joined, List.map_nil, List.append_nil]
  rw [← hjoined]
  exact h.joined hr (.done {})

end Reader

end Text

end RegisterMachine
