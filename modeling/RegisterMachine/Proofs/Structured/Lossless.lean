import RegisterMachine.Proofs.Structured.Lexing

/-! # Nothing is lost of a FAIL source

The tokens of a source stand at their places, and between them there are blanks and comments only.
Each of them is as long as it could be: the character behind it would not have gone on with it.

* `doubles`: the symbols of two characters.
* `Longest`: a token and the character behind it.
* `tokenize_longest`: the source, the ends of its lexemes, and its lexemes in a row. -/

namespace RegisterMachine

open RegisterMachine.Text

/-- The place of the character behind. -/
def Span.behind (s : Span) : Span := ⟨s.line, s.column + s.length, 1⟩

/-- What the place of the cursor shows is the next character. -/
theorem Cursor.At.head {text rest : List Char} {p : Cursor} {d : Char} (h : At text p rest)
    (hshows : (p.span 1).Shows text d) : ∃ more, rest = d :: more := by
  obtain ⟨before, -, hrow, hcolumn⟩ := h.line
  obtain ⟨-, row, -, hrow', -, hd⟩ := hshows
  have hd' : row[before.length]? = some d := by
    rw [show before.length = p.column - 1 by omega]
    exact hd
  cases hrow.symm.trans hrow'
  rw [List.getElem?_append_right (Nat.le_refl _), Nat.sub_self] at hd'
  cases rest with
  | nil => cases hd'
  | cons c more =>
    unfold restOfLine at hd'
    rw [List.takeWhile_cons] at hd'
    split at hd'
    · cases hd'
      exact ⟨more, rfl⟩
    · cases hd'

namespace Structured

open RegisterMachine.Success

/-! ### Symbols of two characters -/

/-- **The symbols of two characters.** -/
def doubles : List String := ["==", "!=", "<=", ">=", "->", "+=", "-=", "*=", "/=", "++", "--"]

section Symbols

variable {c d : Char} {kind : TokenKind}

theorem doubles_are_symbols : (doubles.all fun text =>
    match text.toList with
    | [c, d] => (TokenKind.ofDouble? c d).isSome
    | _ => false) = true := by
  decide

theorem symbols_are_doubles : ("=!<>+-*/".toList.all fun c => "=>+-".toList.all fun d =>
    !(TokenKind.ofDouble? c d).isSome || doubles.contains (String.ofList [c, d])) = true := by
  decide

/-- Two characters are a symbol if they are one of these. -/
theorem isSome_ofDouble?_iff :
    (TokenKind.ofDouble? c d).isSome = true ↔ String.ofList [c, d] ∈ doubles := by
  constructor
  · intro h
    obtain ⟨kind, hkind⟩ := Option.isSome_iff_exists.mp h
    obtain ⟨hc, hd⟩ := ofDouble?_chars hkind
    have hsymbol := List.all_eq_true.mp (List.all_eq_true.mp symbols_are_doubles c hc) d hd
    simpa [h] using hsymbol
  · intro h
    have hsymbol := List.all_eq_true.mp doubles_are_symbols _ h
    rwa [String.toList_ofList] at hsymbol

theorem not_mem_doubles (h : TokenKind.ofDouble? c d = none) : String.ofList [c, d] ∉ doubles := by
  rw [← isSome_ofDouble?_iff, h]
  decide

/-- No symbol begins with a character of a word. -/
theorem not_mem_doubles_of_inWord (h : inWord c = true) : String.ofList [c, d] ∉ doubles := by
  refine not_mem_doubles ?_
  rw [Option.eq_none_iff_forall_ne_some]
  intro kind hkind
  have hall : ("=!<>+-*/".toList.all fun x => !inWord x) = true := by decide
  simpa [h] using List.all_eq_true.mp hall c (ofDouble?_chars hkind).1

end Symbols

/-! ### The ends of tokens -/

/-- **The token could not have been longer**: behind a number there is no digit, behind a word
nothing that words go on with, and a symbol of one character is not the first of two. -/
structure Longest (text : List Char) (t : Token) : Prop where
  number : t.kind = .number → ∀ d, t.span.behind.Shows text d → d.isDigit = false
  word : t.kind = .identifier ∨ (∃ k, t.kind = .keyword k) →
    ∀ d, t.span.behind.Shows text d → inWord d = false
  symbol : ∀ c, t.raw = String.ofList [c] →
    ∀ d, t.span.behind.Shows text d → String.ofList [c, d] ∉ doubles

section Ends

variable {text more left cs : List Char} {start : Cursor} {c d : Char} {kind : TokenKind}
  {t : Token}

/-- The characters of a number or a word begin no symbol. -/
theorem Longest.of_number (hkind : t.kind = .number)
    (hfirst : ∀ c, t.raw = String.ofList [c] → inWord c = true)
    (hend : ∀ d, t.span.behind.Shows text d → d.isDigit = false) : Longest text t where
  number _ := hend
  word := by rintro (hword | ⟨k, hword⟩) <;> cases hkind.symm.trans hword
  symbol c hone _ _ := not_mem_doubles_of_inWord (hfirst c hone)

theorem Longest.of_word (hkind : t.kind ≠ .number)
    (hfirst : ∀ c, t.raw = String.ofList [c] → inWord c = true)
    (hend : ∀ d, t.span.behind.Shows text d → inWord d = false) : Longest text t where
  number hnumber := absurd hnumber hkind
  word _ := hend
  symbol c hone _ _ := not_mem_doubles_of_inWord (hfirst c hone)

/-- A symbol is neither a number nor a word. -/
theorem Longest.of_symbol (hkind : t.kind.isWritten = false)
    (hend : ∀ c, t.raw = String.ofList [c] →
      ∀ d, t.span.behind.Shows text d → String.ofList [c, d] ∉ doubles) : Longest text t where
  number hnumber := by
    rw [hnumber] at hkind
    cases hkind
  word := by
    rintro (hword | ⟨k, hword⟩) <;>
    · rw [hword] at hkind
      cases hkind
  symbol := hend

theorem dropWhile_head {p : Char → Bool} {l rest : List Char} (h : l.dropWhile p = d :: rest) :
    p d = false := by
  have hhead := List.head?_dropWhile_not p l
  rw [h] at hhead
  simpa using hhead

theorem numberToken_kind {lexeme : List Char} (h : numberToken start lexeme = .ok t) :
    t.kind = .number := by
  dsimp only [numberToken] at h
  split at h <;> cases h
  rfl

theorem singleToken_kind (h : singleToken start c = .ok t) : t.kind.isWritten = false := by
  unfold singleToken at h
  split at h
  · rename_i kind hkind
    cases h
    exact isWritten_ofSingle? hkind
  · cases h

theorem wordToken_kind (word : List Char) : (wordToken start word).kind ≠ .number := by
  unfold wordToken
  dsimp only
  split <;> exact nofun

/-- **A token is as long as it could be.** -/
theorem read_longest (h : Cursor.At text start (c :: more)) (hsolid : isBlank c = false)
    (hread : reader.read start c more = .ok (t, left)) : Longest text t := by
  obtain ⟨cs, rfl, htakes⟩ := reads_lexeme hread
  have hspan : t.span = start.span (c :: cs).length := htakes.span
  have hraw : t.raw.toList = c :: cs := htakes.raw
  have hbehind : ∀ d, t.span.behind.Shows text d → ∃ rest, left = d :: rest := by
    intro d hshows
    rw [hspan] at hshows
    rw [← List.cons_append] at h
    exact (h.skip (Laid.not_mem_lexeme hsolid htakes.inner)).head hshows
  have hone : ∀ c', t.raw = String.ofList [c'] → c = c' ∧ cs = [] := by
    intro c' hone
    rw [hone, String.toList_ofList] at hraw
    exact ⟨(List.cons.inj hraw).1.symm, (List.cons.inj hraw).2.symm⟩
  obtain hc | ⟨hdigit, hc | ⟨hc, ⟨d, rest, kind, htext, hkind⟩ | hsingle⟩⟩ :=
    read_cases c (cs ++ left)
  · rw [read_number hc] at hread
    obtain ⟨t', ht', heq⟩ := map_ok hread
    obtain ⟨rfl, hleft⟩ := Prod.mk.inj heq
    refine .of_number (numberToken_kind ht') (fun c' h' => ?_) fun d hshows => ?_
    · rw [← (hone c' h').1]
      exact inWord_of_isDigit hc
    · obtain ⟨rest, hrest⟩ := hbehind d hshows
      exact dropWhile_head (hleft.trans hrest)
  · rw [read_word hdigit hc] at hread
    obtain ⟨rfl, hleft⟩ := Prod.mk.inj (Except.ok.inj hread)
    refine .of_word (wordToken_kind _) (fun c' h' => ?_) fun d hshows => ?_
    · rw [← (hone c' h').1]
      exact inWord_of_opensWord hc
    · obtain ⟨rest, hrest⟩ := hbehind d hshows
      exact dropWhile_head (hleft.trans hrest)
  · rw [htext, read_double hdigit hc hkind] at hread
    obtain ⟨rfl, hleft⟩ := Prod.mk.inj (Except.ok.inj hread)
    refine .of_symbol (isWritten_ofDouble? hkind) fun c' h' => ?_
    rw [symbolToken, String.toList_ofList, (hone c' h').2] at hraw
    cases hraw
  · rw [read_single hdigit hc hsingle] at hread
    obtain ⟨t', ht', heq⟩ := map_ok hread
    obtain ⟨rfl, hleft⟩ := Prod.mk.inj heq
    refine .of_symbol (singleToken_kind ht') fun c' h' d hshows => ?_
    obtain ⟨rest, hrest⟩ := hbehind d hshows
    rw [← (hone c' h').1]
    exact not_mem_doubles (hsingle d rest (hleft.trans hrest))

end Ends

/-- **Nothing is lost of a source, and each lexeme is as long as it could be.** Each lexeme stands
at its place, one behind the other, with nothing else between them than blanks and comments, and
none of them could have gone on. With a blank between any two of them they are read as the same
tokens. -/
theorem tokenize_longest {source : String} {tokens : List Token}
    (h : tokenize source = .ok tokens) :
    Lossless source.toList (tokens.map fun t => (t.span, t.raw.toList)) ∧
    (∀ t ∈ tokens, Longest source.toList t) ∧
    ∃ again, tokenize (" ".intercalate (tokens.map Token.raw)) = .ok again ∧
      again.map Token.bare = tokens.map Token.bare := by
  have hscans := tokenize_scans source
  rw [h] at hscans
  refine ⟨(hscans.laid lawful rfl).lossless, fun t ht => ?_, ?_⟩
  · obtain ⟨start, c, more, left, hat, hsolid, -, hread⟩ :=
      hscans.outcome lawful (Cursor.At.start _) t ht
    exact read_longest hat hsolid hread
  · obtain ⟨again, hagain, hbare⟩ := hscans.reread lawful
    exact ⟨again, (tokenize_scans _).unique hagain, hbare⟩

/-- A word and a number without a blank, symbols of two characters and of one, and a comment behind
a symbol. -/
theorem tight_longest : ∃ tokens, tokenize "var a1=2*(x<=3y)/ /b;//=" = .ok tokens ∧
    tokens.map Token.raw = ["var", "a1", "=", "2", "*", "(", "x", "<=", "3", "y", ")", "/", "/",
      "b", ";"] ∧
    Lossless "var a1=2*(x<=3y)/ /b;//=".toList (tokens.map fun t => (t.span, t.raw.toList)) ∧
    (∀ t ∈ tokens, Longest "var a1=2*(x<=3y)/ /b;//=".toList t) ∧
    ∃ again, tokenize (" ".intercalate (tokens.map Token.raw)) = .ok again ∧
      again.map Token.bare = tokens.map Token.bare := by
  have h : (tokenize "var a1=2*(x<=3y)/ /b;//=").toOption.map (List.map Token.raw) =
      some ["var", "a1", "=", "2", "*", "(", "x", "<=", "3", "y", ")", "/", "/", "b", ";"] := by
    decide +kernel
  obtain ⟨tokens, htokens, hraw⟩ := Option.map_eq_some_iff.mp h
  obtain ⟨hlossless, hlongest, hagain⟩ := tokenize_longest (ok_of_toOption htokens)
  exact ⟨tokens, ok_of_toOption htokens, hraw, hlossless, hlongest, hagain⟩

end Structured

end RegisterMachine
