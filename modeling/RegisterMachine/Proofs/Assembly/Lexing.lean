import RegisterMachine.Proofs.Assembly.Scanning
import RegisterMachine.Proofs.Text.Reader

/-! # Assembly text, lexeme by lexeme

How a word or a number is taken from the front of a text, and what becomes of it by what stands
behind its characters. The assembly language is read by the laws of a reader.

* `wordEnd`, `numberEnd`: a word or a number, by what stands behind it.
* `lawful`: the laws of reading.
* `tokenize_scans`: the tokens of a source are what the text comes to. -/

namespace RegisterMachine.Assembly

open RegisterMachine.Success RegisterMachine.Text

/-! ### Other places -/

/-- The token at another place. -/
def Token.placed (f : Span → Span) (t : Token) : Token := { t with span := f t.span }

/-- The error at another place. -/
def Error.placed (f : Span → Span) : Error → Error
  | .unexpectedCharacter c span => .unexpectedCharacter c (f span)
  | .missingNumber sigil span => .missingNumber sigil (f span)
  | .numberOutOfRange span => .numberOutOfRange (f span)
  | .unexpectedEnd span => .unexpectedEnd (f span)
  | .unexpectedToken raw span => .unexpectedToken raw (f span)
  | .missingArgument op span => .missingArgument op (f span)
  | .invalidArgument op raw span => .invalidArgument op raw (f span)
  | .unresolvedLabel name span => .unresolvedLabel name (f span)
  | .registerOutOfBounds register bank span => .registerOutOfBounds register bank (f span)

/-- How the assembly language is read. -/
def reader : Reader Token Error where
  read place c text := (readLexeme place c text).map fun lexeme => (lexeme.1, lexeme.2.1)
  span := Token.span
  raw := Token.raw
  place := Token.placed
  placeError := Error.placed

/-! ### Words and numbers -/

/-- **A word, by what stands behind it.** -/
def wordEnd (start : Cursor) (word : List Char) : List Char → Except Error (Token × List Char)
  | ':' :: rest => .ok (labelToken start word, rest)
  | rest =>
    if endsLexeme rest then .ok (wordToken start word, rest)
    else .error (strayCharacter (start.skip word.length) rest)

/-- A number with its sigil, if it has one. -/
def numberToken (start : Cursor) (kind : TokenKind) (c : Char) (digits : List Char) :
    Except Error Token :=
  let lexeme := c :: digits
  let number := if c.isDigit then lexeme else digits
  if number.isEmpty then .error (.missingNumber c (start.span 1))
  else match Decimal.word? number with
    | none => .error (.numberOutOfRange (start.span lexeme.length))
    | some value =>
      .ok ⟨kind, .number value, start.span lexeme.length, String.ofList lexeme⟩

/-- **A number, by what stands behind it.** -/
def numberEnd (start : Cursor) (kind : TokenKind) (c : Char) (digits rest : List Char) :
    Except Error (Token × List Char) :=
  if endsLexeme rest then (numberToken start kind c digits).map (·, rest)
  else .error (strayCharacter (start.skip (c :: digits).length) rest)

section Lexemes

variable {start : Cursor} {c b : Char} {text rest word digits left : List Char} {kind : TokenKind}
  {t : Token}

theorem wordEnd_of_ne (h : ∀ rest, text ≠ ':' :: rest) : wordEnd start word text =
    if endsLexeme text then .ok (wordToken start word, text)
    else .error (strayCharacter (start.skip word.length) text) := by
  unfold wordEnd
  split
  · rename_i rest
    exact absurd rfl (h rest)
  · rfl

theorem read_word (h : opensWord c = true) : reader.read start c text =
    wordEnd start (c :: text.takeWhile inWord) (text.dropWhile inWord) := by
  show (readLexeme start c text).map _ = _
  rw [readLexeme, if_pos h]
  unfold readWord
  split
  · rename_i rest heq
    have hend : wordEnd start (c :: text.takeWhile inWord) (text.dropWhile inWord) =
        .ok (labelToken start (c :: text.takeWhile inWord), rest) := by
      rw [heq]
      rfl
    exact hend.symm
  · rename_i hne
    rw [wordEnd_of_ne hne]
    cases hends : endsLexeme (text.dropWhile inWord) <;> simp [Except.map]

theorem read_number (hword : opensWord c = false) (hkind : numberKind? c = some kind) :
    reader.read start c text =
      numberEnd start kind c (text.takeWhile Char.isDigit) (text.dropWhile Char.isDigit) := by
  show (readLexeme start c text).map _ = _
  rw [readLexeme, hword, if_neg (by decide), hkind]
  dsimp only [readNumber, numberEnd, numberToken]
  generalize (if c.isDigit then c :: text.takeWhile Char.isDigit else
    text.takeWhile Char.isDigit) = number
  cases endsLexeme (text.dropWhile Char.isDigit) with
  | false => rfl
  | true =>
    cases number.isEmpty with
    | true => rfl
    | false => cases Decimal.word? number <;> rfl

theorem read_other (hword : opensWord c = false) (hkind : numberKind? c = none) :
    reader.read start c text = .error (.unexpectedCharacter c (start.span 1)) := by
  show (readLexeme start c text).map _ = _
  rw [readLexeme, hword, if_neg (by decide), hkind]
  rfl

/-- What is read is a word, a number, or nothing. -/
theorem read_cases (c : Char) : opensWord c = true ∨ opensWord c = false ∧
    ((∃ kind, numberKind? c = some kind) ∨ numberKind? c = none) := by
  cases opensWord c with
  | true => exact .inl rfl
  | false =>
    cases numberKind? c with
    | some kind => exact .inr ⟨rfl, .inl ⟨kind, rfl⟩⟩
    | none => exact .inr ⟨rfl, .inr rfl⟩

theorem colon_cases (text : List Char) :
    (∃ rest, text = ':' :: rest) ∨ ∀ rest, text ≠ ':' :: rest := by
  by_cases h : ∃ rest, text = ':' :: rest
  · exact .inl h
  · exact .inr fun rest heq => h ⟨rest, heq⟩

theorem numberToken_ok (h : numberToken start kind c digits = .ok t) : ∃ value,
    t = ⟨kind, .number value, start.span (c :: digits).length, String.ofList (c :: digits)⟩ := by
  dsimp only [numberToken] at h
  generalize (if c.isDigit then c :: digits else digits) = number at h
  split at h
  · cases h
  · split at h
    · cases h
    · cases h
      exact ⟨_, rfl⟩

/-- **What was read** is a label, a word or a number. -/
theorem read_ok (h : reader.read start c text = .ok (t, left)) :
    (opensWord c = true ∧ text.dropWhile inWord = ':' :: left ∧
      t = labelToken start (c :: text.takeWhile inWord)) ∨
    (opensWord c = true ∧ text.dropWhile inWord = left ∧
      t = wordToken start (c :: text.takeWhile inWord)) ∨
    ∃ kind, opensWord c = false ∧ numberKind? c = some kind ∧ text.dropWhile Char.isDigit = left ∧
      numberToken start kind c (text.takeWhile Char.isDigit) = .ok t := by
  obtain hc | ⟨hc, ⟨kind, hkind⟩ | hkind⟩ := read_cases c
  · rw [read_word hc] at h
    obtain ⟨rest, hcolon⟩ | hcolon := colon_cases (text.dropWhile inWord)
    · rw [hcolon] at h
      cases h
      exact .inl ⟨hc, hcolon, rfl⟩
    · rw [wordEnd_of_ne hcolon] at h
      split at h
      · cases h
        exact .inr (.inl ⟨hc, rfl, rfl⟩)
      · cases h
  · rw [read_number hc hkind, numberEnd] at h
    split at h
    · obtain ⟨t', ht', heq⟩ := map_ok h
      cases heq
      exact .inr (.inr ⟨kind, hc, hkind, rfl, ht'⟩)
    · cases h
  · rw [read_other hc hkind] at h
    cases h

/-! ### What ends a lexeme -/

/-- A blank behind the text ends a lexeme just as the end of the text does. -/
theorem endsLexeme_parted (hb : isBlank b = true) (text rest : List Char) :
    endsLexeme (text ++ b :: rest) = endsLexeme text := by
  cases text with
  | nil => simp [endsLexeme, hb]
  | cons c text =>
    rw [List.cons_append, endsLexeme, endsLexeme, opensComment_parted (ne_slash_of_isBlank hb)]

theorem strayCharacter_parted (h : endsLexeme text = false) (more : List Char) :
    strayCharacter start (text ++ more) = strayCharacter start text := by
  cases text with
  | nil => cases h
  | cons c text => rfl

theorem wordEnd_parted (hb : isBlank b = true) : wordEnd start word (text ++ b :: rest) =
    (wordEnd start word text).map (Prod.map id (· ++ b :: rest)) := by
  obtain ⟨left, rfl⟩ | hcolon := colon_cases text
  · rfl
  · have hcolon' : ∀ left, text ++ b :: rest ≠ ':' :: left := by
      intro left heq
      cases text with
      | nil =>
        rw [(List.cons.inj heq).1] at hb
        exact absurd hb (by decide)
      | cons c text => exact hcolon text (by rw [(List.cons.inj heq).1])
    rw [wordEnd_of_ne hcolon, wordEnd_of_ne hcolon', endsLexeme_parted hb]
    split
    · rfl
    · rename_i hends
      rw [strayCharacter_parted (Bool.eq_false_iff.mpr hends)]
      rfl

theorem numberEnd_parted (hb : isBlank b = true) :
    numberEnd start kind c digits (text ++ b :: rest) =
      (numberEnd start kind c digits text).map (Prod.map id (· ++ b :: rest)) := by
  rw [numberEnd, numberEnd, endsLexeme_parted hb]
  split
  · cases numberToken start kind c digits <;> rfl
  · rename_i hends
    rw [strayCharacter_parted (Bool.eq_false_iff.mpr hends)]
    rfl

/-! ### Lexemes at other places -/

variable (lines columns : Nat)

theorem shift_skip (n : Nat) :
    (start.shift lines columns).skip n = (start.skip n).shift lines columns := by
  rw [Cursor.shift, Cursor.shift, Cursor.skip, Cursor.skip, Nat.add_right_comm]

theorem wordToken_shift : wordToken (start.shift lines columns) word =
    (wordToken start word).placed (Span.shift lines columns) := by
  unfold wordToken
  dsimp only
  split <;> rfl

theorem strayCharacter_shift : strayCharacter (start.shift lines columns) text =
    (strayCharacter start text).placed (Span.shift lines columns) := by
  cases text <;> rfl

theorem wordEnd_shift : wordEnd (start.shift lines columns) word text =
    reader.placed (Prod.map (Token.placed (Span.shift lines columns)) id) (Span.shift lines columns)
      (wordEnd start word text) := by
  obtain ⟨left, rfl⟩ | hcolon := colon_cases text
  · rfl
  · rw [wordEnd_of_ne hcolon, wordEnd_of_ne hcolon, wordToken_shift, shift_skip,
      strayCharacter_shift]
    split <;> rfl

theorem numberEnd_shift : numberEnd (start.shift lines columns) kind c digits text =
    reader.placed (Prod.map (Token.placed (Span.shift lines columns)) id) (Span.shift lines columns)
      (numberEnd start kind c digits text) := by
  rw [numberEnd, numberEnd, shift_skip, strayCharacter_shift]
  dsimp only [numberToken]
  generalize (if c.isDigit then c :: digits else digits) = number
  cases endsLexeme text with
  | false => rfl
  | true =>
    cases number.isEmpty with
    | true => rfl
    | false => cases Decimal.word? number <;> rfl

end Lexemes

/-! ### The laws -/

section Laws

variable {start : Cursor} {c : Char} {text left word : List Char} {kind : TokenKind} {t : Token}

theorem takes_label (hc : opensWord c = true) (hword : ∀ x ∈ word, inWord x = true) :
    reader.Takes start c (word ++ [':']) (labelToken start (c :: word)) := by
  obtain ⟨htake, hdrop⟩ := takeWhile_append_stop (d := ':') hword (by decide) []
  refine ⟨String.toList_ofList, ?_, ?_, ?_⟩
  · show start.span ((c :: word).length + 1) = _
    rw [List.length_cons, List.length_cons, List.length_append]
    rfl
  · rw [List.forall_mem_append]
    exact ⟨inner_of_inWord hword, List.forall_mem_singleton.mpr (by decide)⟩
  · rw [read_word hc, htake, hdrop]
    rfl

theorem wordToken_span (word : List Char) :
    (wordToken start word).span = start.span word.length := by
  unfold wordToken
  dsimp only
  split <;> rfl

theorem wordToken_raw (word : List Char) : (wordToken start word).raw = String.ofList word := by
  unfold wordToken
  dsimp only
  split <;> rfl

theorem takes_word (hc : opensWord c = true) (hword : ∀ x ∈ word, inWord x = true) :
    reader.Takes start c word (wordToken start (c :: word)) := by
  refine ⟨?_, wordToken_span _, inner_of_inWord hword, ?_⟩
  · show (wordToken start (c :: word)).raw.toList = _
    rw [wordToken_raw, String.toList_ofList]
  · rw [read_word hc, List.takeWhile_eq_self_iff.mpr hword, List.dropWhile_eq_nil_iff.mpr hword]
    rfl

theorem takes_number {digits : List Char} (hc : opensWord c = false)
    (hkind : numberKind? c = some kind) (hdigits : ∀ x ∈ digits, x.isDigit = true)
    (h : numberToken start kind c digits = .ok t) : reader.Takes start c digits t := by
  have hread : reader.read start c digits = .ok (t, []) := by
    rw [read_number hc hkind, List.takeWhile_eq_self_iff.mpr hdigits,
      List.dropWhile_eq_nil_iff.mpr hdigits, numberEnd, h]
    rfl
  have hinner : ∀ x ∈ digits, isBlank x = false ∧ x ≠ '/' :=
    inner_of_inWord fun x hx => inWord_of_isDigit (hdigits x hx)
  obtain ⟨value, rfl⟩ := numberToken_ok h
  exact ⟨String.toList_ofList, rfl, hinner, hread⟩

theorem reads_lexeme (h : reader.read start c text = .ok (t, left)) :
    ∃ cs, text = cs ++ left ∧ reader.Takes start c cs t := by
  have hword : ∀ x ∈ text.takeWhile inWord, inWord x = true := fun x => List.mem_takeWhile_imp
  have htext := (List.takeWhile_append_dropWhile (p := inWord) (l := text)).symm
  obtain ⟨hc, hleft, rfl⟩ | ⟨hc, hleft, rfl⟩ | ⟨kind, hc, hkind, rfl, hnumber⟩ := read_ok h
  · refine ⟨_, ?_, takes_label hc hword⟩
    rwa [hleft, ← List.singleton_append, ← List.append_assoc] at htext
  · exact ⟨_, hleft ▸ htext, takes_word hc hword⟩
  · exact ⟨_, List.takeWhile_append_dropWhile.symm,
      takes_number hc hkind (fun x => List.mem_takeWhile_imp) hnumber⟩

/-- **The assembly language is read by the laws.** -/
theorem lawful : reader.Lawful where
  lexeme _ h := reads_lexeme h
  parted := by
    intro b hb start c text rest
    obtain hc | ⟨hc, ⟨kind, hkind⟩ | hkind⟩ := read_cases c
    · obtain ⟨htake, hdrop⟩ := takeWhile_parted (inWord_of_isBlank hb) text rest
      rw [read_word hc, read_word hc, htake, hdrop, wordEnd_parted hb]
    · obtain ⟨htake, hdrop⟩ := takeWhile_parted (isDigit_of_isBlank hb) text rest
      rw [read_number hc hkind, read_number hc hkind, htake, hdrop, numberEnd_parted hb]
    · rw [read_other hc hkind, read_other hc hkind]
      rfl
  shifted := by
    intro lines columns start c text
    obtain hc | ⟨hc, ⟨kind, hkind⟩ | hkind⟩ := read_cases c
    · rw [read_word hc, read_word hc]
      exact wordEnd_shift lines columns
    · rw [read_number hc hkind, read_number hc hkind]
      exact numberEnd_shift lines columns
    · rw [read_other hc hkind, read_other hc hkind]
      rfl
  place_place _ _ _ := rfl
  span_place _ _ := rfl

end Laws

/-! ### Whole texts -/

/-- What is found in a text is what it comes to. -/
theorem scan_scans (found : Array Token) (place : Cursor) (text : List Char) :
    ∃ result, reader.Scans place text result ∧
      (scan found place text).map Array.toList = result.map (found.toList ++ ·) := by
  fun_induction scan found place text with
  | case1 found place => exact ⟨.ok [], .done place, by simp [Except.map]⟩
  | case2 found place c text hblank ih =>
    obtain ⟨result, hscans, heq⟩ := ih
    exact ⟨result, .blank hblank hscans, heq⟩
  | case3 found place c text hblank hcomment ih =>
    obtain ⟨result, hscans, heq⟩ := ih
    exact ⟨result, .comment (Bool.eq_false_iff.mpr hblank) hcomment hscans, heq⟩
  | case4 found place c text hblank hcomment e hread =>
    refine ⟨.error e, .refused (Bool.eq_false_iff.mpr hblank) (Bool.eq_false_iff.mpr hcomment) ?_,
      rfl⟩
    show (readLexeme place c text).map _ = _
    rw [hread]
    rfl
  | case5 found place c text hblank hcomment t left hleft hread ih =>
    obtain ⟨result, hscans, heq⟩ := ih
    refine ⟨result.map (t :: ·), .lexeme (Bool.eq_false_iff.mpr hblank)
      (Bool.eq_false_iff.mpr hcomment) ?_ hscans, ?_⟩
    · show (readLexeme place c text).map _ = _
      rw [hread]
      rfl
    · rw [heq]
      cases result <;> simp [Except.map]

/-- **The tokens of a source are what its text comes to.** -/
theorem tokenize_scans (source : String) : reader.Scans {} source.toList (tokenize source) := by
  obtain ⟨result, hscans, heq⟩ := scan_scans #[] {} source.toList
  have hresult : tokenize source = result := by
    rw [tokenize, heq]
    cases result <;> rfl
  rw [hresult]
  exact hscans

end RegisterMachine.Assembly
