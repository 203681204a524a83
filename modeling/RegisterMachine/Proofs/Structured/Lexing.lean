import RegisterMachine.Proofs.Structured.Lexemes
import RegisterMachine.Proofs.Text.Reader

/-! # FAIL text, lexeme by lexeme

A lexeme goes on as long as it can. Numbers and words go on up to the first character that they
cannot have; whether a symbol has a second character is seen from the next one alone. So a blank
behind a lexeme changes nothing, and FAIL is read by the laws of a reader.

* `read_number`, `read_word`, `read_double`, `read_single`: what a lexeme is, by its characters.
* `lawful`: the laws of reading.
* `tokenize_scans`: the tokens of a source are what the text comes to. -/

namespace RegisterMachine.Structured

open RegisterMachine.Success RegisterMachine.Text

/-! ### Other places -/

/-- The token at another place. -/
def Token.placed (f : Span → Span) (t : Token) : Token := { t with span := f t.span }

/-- The error at another place. -/
def Error.placed (f : Span → Span) (e : Error) : Error := { e with span := f e.span }

/-- How FAIL is read. -/
def reader : Reader Token Error where
  read place c text := (readLexeme place c text).map fun lexeme => (lexeme.1, lexeme.2.1)
  span := Token.span
  raw := Token.raw
  place := Token.placed
  placeError := Error.placed

/-! ### Numbers, words and symbols -/

/-- A number by its digits. -/
def numberToken (start : Cursor) (lexeme : List Char) : Except Error Token :=
  let raw := String.ofList lexeme
  let span := start.span lexeme.length
  match Decimal.word? lexeme with
  | some value => .ok ⟨.number, .number value, span, raw⟩
  | none => .error ⟨.numberOutOfRange, s!"number `{raw}` does not fit in a register", span⟩

/-- A symbol of one character. -/
def singleToken (start : Cursor) (c : Char) : Except Error Token :=
  match TokenKind.ofSingle? c with
  | some kind => .ok (symbolToken start kind [c])
  | none => .error ⟨.unexpectedCharacter, s!"unexpected character `{c}`", start.span 1⟩

/-- The first character and the one behind it are no symbol of two. -/
def IsSingle (c : Char) (text : List Char) : Prop :=
  ∀ d rest, text = d :: rest → TokenKind.ofDouble? c d = none

section Lexemes

variable {start : Cursor} {c d b : Char} {text rest left word digits : List Char} {kind : TokenKind}
  {t : Token}

theorem read_number (h : c.isDigit = true) : reader.read start c text =
    (numberToken start (c :: text.takeWhile Char.isDigit)).map
      (·, text.dropWhile Char.isDigit) := by
  show (readLexeme start c text).map _ = _
  rw [readLexeme, if_pos h, readNumber, numberToken]
  cases Decimal.word? (c :: text.takeWhile Char.isDigit) <;> rfl

theorem read_word (hdigit : c.isDigit = false) (h : opensWord c = true) : reader.read start c text =
    .ok (wordToken start (c :: text.takeWhile inWord), text.dropWhile inWord) := by
  show (readLexeme start c text).map _ = _
  rw [readLexeme, hdigit, if_neg (by decide), if_pos h]
  rfl

theorem read_symbol (hdigit : c.isDigit = false) (hword : opensWord c = false) :
    reader.read start c text =
      (readSymbol start c text).map fun lexeme => (lexeme.1, lexeme.2.1) := by
  show (readLexeme start c text).map _ = _
  rw [readLexeme, hdigit, if_neg (by decide), hword, if_neg (by decide)]

theorem read_double (hdigit : c.isDigit = false) (hword : opensWord c = false)
    (h : TokenKind.ofDouble? c d = some kind) :
    reader.read start c (d :: rest) = .ok (symbolToken start kind [c, d], rest) := by
  rw [read_symbol hdigit hword, readSymbol, readDouble?, h]
  rfl

theorem isSingle_nil : IsSingle c [] := fun d rest heq => by cases heq

theorem read_single (hdigit : c.isDigit = false) (hword : opensWord c = false)
    (h : IsSingle c text) : reader.read start c text = (singleToken start c).map (·, text) := by
  have hnone : readDouble? start c text = none := by
    cases text with
    | nil => rfl
    | cons d rest => rw [readDouble?, h d rest rfl, Option.map_none]
  rw [read_symbol hdigit hword, readSymbol, hnone, singleToken]
  cases TokenKind.ofSingle? c <;> rfl

/-- **What the first characters say of a lexeme**: it is a number, a word, a symbol of two
characters, or one of one if it is any. -/
theorem read_cases (c : Char) (text : List Char) : c.isDigit = true ∨ c.isDigit = false ∧
    (opensWord c = true ∨ opensWord c = false ∧
      ((∃ d rest kind, text = d :: rest ∧ TokenKind.ofDouble? c d = some kind) ∨
        IsSingle c text)) := by
  cases c.isDigit with
  | true => exact .inl rfl
  | false =>
    cases opensWord c with
    | true => exact .inr ⟨rfl, .inl rfl⟩
    | false =>
      refine .inr ⟨rfl, .inr ⟨rfl, ?_⟩⟩
      cases text with
      | nil => exact .inr isSingle_nil
      | cons d rest =>
        cases h : TokenKind.ofDouble? c d with
        | some kind => exact .inl ⟨d, rest, kind, rfl, h⟩
        | none =>
          refine .inr fun d' rest' heq => ?_
          cases heq
          exact h

/-- The second character of a symbol is neither a blank nor a slash. -/
theorem second_of_ofDouble? (h : TokenKind.ofDouble? c d = some kind) :
    isBlank d = false ∧ d ≠ '/' := by
  have hall : ("=>+-".toList.all fun x => !isBlank x && x != '/') = true := by decide
  simpa using List.all_eq_true.mp hall d (ofDouble?_chars h).2

/-- A blank is no part of a symbol. -/
theorem IsSingle.parted (h : IsSingle c text) (hb : isBlank b = true) (rest : List Char) :
    IsSingle c (text ++ b :: rest) := by
  intro d more heq
  cases text with
  | nil =>
    cases heq
    rw [Option.eq_none_iff_forall_ne_some]
    intro kind hkind
    rw [(second_of_ofDouble? hkind).1] at hb
    cases hb
  | cons d' text =>
    cases heq
    exact h d text rfl

/-! ### The laws -/

theorem wordToken_span (word : List Char) :
    (wordToken start word).span = start.span word.length := by
  unfold wordToken
  dsimp only
  split <;> rfl

theorem wordToken_raw (word : List Char) : (wordToken start word).raw = String.ofList word := by
  unfold wordToken
  dsimp only
  split <;> rfl

theorem wordToken_shift (lines columns : Nat) : wordToken (start.shift lines columns) word =
    (wordToken start word).placed (Span.shift lines columns) := by
  unfold wordToken
  dsimp only
  split <;> rfl

theorem takes_number (hc : c.isDigit = true) (hdigits : ∀ x ∈ digits, x.isDigit = true)
    (h : numberToken start (c :: digits) = .ok t) : reader.Takes start c digits t := by
  have hread : reader.read start c digits = .ok (t, []) := by
    rw [read_number hc, List.takeWhile_eq_self_iff.mpr hdigits,
      List.dropWhile_eq_nil_iff.mpr hdigits, h]
    rfl
  have hinner : ∀ x ∈ digits, isBlank x = false ∧ x ≠ '/' :=
    inner_of_inWord fun x hx => inWord_of_isDigit (hdigits x hx)
  dsimp only [numberToken] at h
  split at h
  · cases h
    exact ⟨String.toList_ofList, rfl, hinner, hread⟩
  · cases h

theorem takes_word (hdigit : c.isDigit = false) (hc : opensWord c = true)
    (hword : ∀ x ∈ word, inWord x = true) :
    reader.Takes start c word (wordToken start (c :: word)) := by
  refine ⟨?_, wordToken_span _, inner_of_inWord hword, ?_⟩
  · show (wordToken start (c :: word)).raw.toList = _
    rw [wordToken_raw, String.toList_ofList]
  · rw [read_word hdigit hc, List.takeWhile_eq_self_iff.mpr hword,
      List.dropWhile_eq_nil_iff.mpr hword]

theorem takes_double (hdigit : c.isDigit = false) (hword : opensWord c = false)
    (h : TokenKind.ofDouble? c d = some kind) :
    reader.Takes start c [d] (symbolToken start kind [c, d]) := by
  exact ⟨String.toList_ofList, rfl, List.forall_mem_singleton.mpr (second_of_ofDouble? h),
    read_double hdigit hword h⟩

theorem takes_single (hdigit : c.isDigit = false) (hword : opensWord c = false)
    (h : singleToken start c = .ok t) : reader.Takes start c [] t := by
  have hread : reader.read start c [] = .ok (t, []) := by
    rw [read_single hdigit hword isSingle_nil, h]
    rfl
  unfold singleToken at h
  split at h
  · cases h
    exact ⟨String.toList_ofList, rfl, List.forall_mem_nil _, hread⟩
  · cases h

theorem reads_lexeme (h : reader.read start c text = .ok (t, left)) :
    ∃ cs, text = cs ++ left ∧ reader.Takes start c cs t := by
  obtain hc | ⟨hdigit, hc | ⟨hc, ⟨d, rest, kind, rfl, hkind⟩ | hsingle⟩⟩ := read_cases c text
  · rw [read_number hc] at h
    obtain ⟨t', ht', heq⟩ := map_ok h
    cases heq
    exact ⟨_, List.takeWhile_append_dropWhile.symm,
      takes_number hc (fun x => List.mem_takeWhile_imp) ht'⟩
  · rw [read_word hdigit hc] at h
    cases h
    exact ⟨_, List.takeWhile_append_dropWhile.symm,
      takes_word hdigit hc fun x => List.mem_takeWhile_imp⟩
  · rw [read_double hdigit hc hkind] at h
    cases h
    exact ⟨[d], rfl, takes_double hdigit hc hkind⟩
  · rw [read_single hdigit hc hsingle] at h
    obtain ⟨t', ht', heq⟩ := map_ok h
    cases heq
    exact ⟨[], rfl, takes_single hdigit hc ht'⟩

/-- **FAIL is read by the laws.** -/
theorem lawful : reader.Lawful where
  lexeme _ h := reads_lexeme h
  parted := by
    intro b hb start c text rest
    obtain hc | ⟨hdigit, hc | ⟨hc, ⟨d, more, kind, rfl, hkind⟩ | hsingle⟩⟩ := read_cases c text
    · obtain ⟨htake, hdrop⟩ := takeWhile_parted (isDigit_of_isBlank hb) text rest
      rw [read_number hc, read_number hc, htake, hdrop]
      cases numberToken start (c :: text.takeWhile Char.isDigit) <;> rfl
    · obtain ⟨htake, hdrop⟩ := takeWhile_parted (inWord_of_isBlank hb) text rest
      rw [read_word hdigit hc, read_word hdigit hc, htake, hdrop]
      rfl
    · rw [List.cons_append, read_double hdigit hc hkind, read_double hdigit hc hkind]
      rfl
    · rw [read_single hdigit hc hsingle, read_single hdigit hc (hsingle.parted hb rest)]
      cases singleToken start c <;> rfl
  shifted := by
    intro lines columns start c text
    obtain hc | ⟨hdigit, hc | ⟨hc, ⟨d, more, kind, rfl, hkind⟩ | hsingle⟩⟩ := read_cases c text
    · rw [read_number hc, read_number hc]
      dsimp only [numberToken]
      cases Decimal.word? (c :: text.takeWhile Char.isDigit) <;> rfl
    · rw [read_word hdigit hc, read_word hdigit hc, wordToken_shift]
      rfl
    · rw [read_double hdigit hc hkind, read_double hdigit hc hkind]
      rfl
    · rw [read_single hdigit hc hsingle, read_single hdigit hc hsingle]
      unfold singleToken
      cases TokenKind.ofSingle? c <;> rfl
  place_place _ _ _ := rfl
  span_place _ _ := rfl

end Lexemes

/-! ### Whole texts -/

/-- What is found in a text is what it comes to. -/
theorem scan_scans (found : Array Token) (place : Cursor) (text : List Char) :
    ∃ result, reader.Scans place text result ∧
      (scan found place text).map Array.toList = result.map (found.toList ++ ·) := by
  fun_induction scan found place text with
  | case1 found place => exact ⟨.ok [], .done place, by simp [Except.map]⟩
  | case2 found place c text hblank ih =>
    obtain ⟨result, hscans, heq⟩ := ih
    exact ⟨result, .blank hblank hscans, heq⟩
  | case3 found place c text hblank hcomment ih =>
    obtain ⟨result, hscans, heq⟩ := ih
    exact ⟨result, .comment (Bool.eq_false_iff.mpr hblank) hcomment hscans, heq⟩
  | case4 found place c text hblank hcomment e hread =>
    refine ⟨.error e, .refused (Bool.eq_false_iff.mpr hblank) (Bool.eq_false_iff.mpr hcomment) ?_,
      rfl⟩
    show (readLexeme place c text).map _ = _
    rw [hread]
    rfl
  | case5 found place c text hblank hcomment t left hleft hread ih =>
    obtain ⟨result, hscans, heq⟩ := ih
    refine ⟨result.map (t :: ·), .lexeme (Bool.eq_false_iff.mpr hblank)
      (Bool.eq_false_iff.mpr hcomment) ?_ hscans, ?_⟩
    · show (readLexeme place c text).map _ = _
      rw [hread]
      rfl
    · rw [heq]
      cases result <;> simp [Except.map]

/-- **The tokens of a source are what its text comes to.** -/
theorem tokenize_scans (source : String) : reader.Scans {} source.toList (tokenize source) := by
  obtain ⟨result, hscans, heq⟩ := scan_scans #[] {} source.toList
  have hresult : tokenize source = result := by
    rw [tokenize, heq]
    cases result <;> rfl
  rw [hresult]
  exact hscans

end RegisterMachine.Structured
