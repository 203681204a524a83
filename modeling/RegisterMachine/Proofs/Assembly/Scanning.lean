import RegisterMachine.Assembly.Program.Parser
import RegisterMachine.Assembly.Token.Lexer
import RegisterMachine.Proofs.Text.Words

/-! # Scanning what was written by the rules

A word is scanned as it is written, and so is a number in decimal digits; comments leave no token.

* `scan_word`, `scan_label`, `scan_number`, `scan_comment`, `scan_blank`: one lexeme in front of a
  text.
* `scan_stray`: what a mark does to a word.
* `scan_opcode`, `scan_operand`: the parts of an instruction.
* `uppercase_of_name`, `word?_toDigits`: names are their own upper case, and digits give back the
  number. -/

namespace RegisterMachine.Assembly

open RegisterMachine.Text

/-! ### Characters -/

/-- A character of a name that is written in capitals. -/
def isNameChar (c : Char) : Bool := c.isUpper || c.isDigit || c == '_'

section Characters

variable {c : Char}

theorem toNat_of_isUpper (h : c.isUpper = true) : 65 ≤ c.toNat ∧ c.toNat ≤ 90 := by
  obtain ⟨hle, hge⟩ := of_decide_eq_true h
  exact ⟨hle, hge⟩

theorem toNat_of_isDigit (h : c.isDigit = true) : 48 ≤ c.toNat ∧ c.toNat ≤ 57 := by
  simp only [Char.isDigit, ge_iff_le, Bool.and_eq_true, decide_eq_true_eq] at h
  exact ⟨h.1, h.2⟩

theorem isAlpha_of_isUpper (h : c.isUpper = true) : c.isAlpha = true :=
  Bool.or_eq_true_iff.mpr (.inl h)

theorem isNameChar_cases (h : isNameChar c = true) :
    c.isUpper = true ∨ c.isDigit = true ∨ c = '_' := by
  simpa [isNameChar, or_assoc] using h

theorem inWord_of_isNameChar (h : isNameChar c = true) : inWord c = true := by
  rcases isNameChar_cases h with h | h | rfl
  · simp [inWord, isLetter, isAlpha_of_isUpper h]
  · simp [inWord, isNumeral_of_isDigit h]
  · simp [inWord]

theorem opensWord_of_isUpper (h : c.isUpper = true) : opensWord c = true := by
  simp [opensWord, isLetter, isAlpha_of_isUpper h]

/-- What opens a lexeme is no blank. -/
theorem isBlank_of_toNat (h : 33 ≤ c.toNat) (h' : c.toNat ≤ 127) : isBlank c = false := by
  unfold isBlank
  split <;> first | omega | (simp; omega)

theorem ne_slash_of_isUpper (h : c.isUpper = true) : c ≠ '/' := by
  rintro rfl
  exact absurd h (by decide)

/-- A character of a name is its own upper case. -/
theorem upperChars_of_isNameChar (h : isNameChar c = true) : upperChars c = [c] := by
  have hsmall : c.toNat < 128 ∧ c.toNat ≤ 95 := by
    rcases isNameChar_cases h with h | h | rfl
    · have := toNat_of_isUpper h
      omega
    · have := toNat_of_isDigit h
      omega
    · decide
  have hlower : ¬ (c.val ≥ 'a'.val ∧ c.val ≤ 'z'.val) := by
    rintro ⟨hle, -⟩
    have : 97 ≤ c.toNat := hle
    omega
  have hsame : c.toUpper = c := dif_neg hlower
  rw [upperChars, if_pos hsmall.1, hsame]

end Characters

theorem uppercase_of_name {s : String} (h : ∀ c ∈ s.toList, isNameChar c = true) :
    uppercase s = s := by
  have hflat : s.toList.flatMap upperChars = s.toList := by
    have heq : ∀ l : List Char, (∀ c ∈ l, isNameChar c = true) → l.flatMap upperChars = l := by
      intro l hl
      induction l with
      | nil => rfl
      | cons c l ih =>
        rw [List.flatMap_cons, upperChars_of_isNameChar (hl c List.mem_cons_self),
          ih fun x hx => hl x (List.mem_cons_of_mem _ hx)]
        rfl
    exact heq _ h
  rw [uppercase, hflat, String.ofList_toList]

/-- The digits of a number that fits in a word give it back. -/
theorem word?_toDigits {n : Nat} (h : n < Decimal.wordCount) :
    Decimal.word? (Nat.toDigits 10 n) = some (UInt32.ofNat n) := by
  have hvalue : Decimal.value (Nat.toDigits 10 n) = n := Nat.ofDigitChars_ten_toDigits
  rw [Decimal.word?, hvalue, if_pos h]

theorem isDigit_of_mem_digits {n : Nat} {c : Char} (h : c ∈ Nat.toDigits 10 n) : c.isDigit = true :=
  Nat.isDigit_of_mem_toDigits (by decide) (by decide) h

/-! ### Lexemes -/

section Lexemes

variable {found : Array Token} {place : Cursor} {c d : Char} {cs rest : List Char}

theorem takeWhile_append_stop {p : Char → Bool} (hcs : ∀ x ∈ cs, p x = true) (hd : p d = false)
    (rest : List Char) :
    (cs ++ d :: rest).takeWhile p = cs ∧ (cs ++ d :: rest).dropWhile p = d :: rest := by
  rw [List.takeWhile_append_of_pos hcs, List.dropWhile_append_of_pos hcs]
  simp [hd]

theorem scan_blank (h : isBlank c = true) :
    scan found place (c :: rest) = scan found (place.next c) rest := by
  rw [scan, if_pos h]

/-- A comment is skipped up to the end of its line. -/
theorem scan_comment (h : '\n' ∉ cs) :
    ∃ place', scan found place ('/' :: '/' :: cs ++ '\n' :: rest) = scan found place' rest := by
  have hstop : ∀ x ∈ '/' :: cs, (x != '\n') = true := by
    intro x hx
    rcases List.mem_cons.mp hx with rfl | hx
    · decide
    · exact bne_iff_ne.mpr fun heq => h (heq ▸ hx)
  have hafter : afterLine ('/' :: (cs ++ '\n' :: rest)) = '\n' :: rest :=
    (takeWhile_append_stop (p := (· != '\n')) hstop (by decide) rest).2
  rw [List.cons_append, List.cons_append, scan, if_neg (by decide), if_pos (by rfl), hafter,
    scan_blank (by decide)]
  exact ⟨_, rfl⟩

/-- A lexeme is read where neither a blank nor a comment stands. -/
theorem scan_lexeme {token : Token} {tail : Shorter (c :: cs)} (hblank : isBlank c = false)
    (hcomment : opensComment (c :: cs) = false)
    (hread : readLexeme place c cs = .ok (token, tail)) :
    scan found place (c :: cs) =
      scan (found.push token) (place.skip token.span.length) tail.1 := by
  rw [scan, if_neg (by simp [hblank]), if_neg (by simp [hcomment]), hread]

theorem length_lt_of_behind (c : Char) (cs rest : List Char) :
    rest.length < (c :: (cs ++ rest)).length := by
  rw [List.length_cons, List.length_append]
  omega

/-- A word in front of a blank. -/
theorem readWord_blank (hcs : ∀ x ∈ cs, inWord x = true) (hd : isBlank d = true)
    (hstop : inWord d = false) :
    readWord place c (cs ++ d :: rest) =
      .ok (wordToken place (c :: cs), ⟨d :: rest, length_lt_of_behind c cs (d :: rest)⟩) := by
  obtain ⟨htake, hdrop⟩ := takeWhile_append_stop hcs hstop rest
  unfold readWord
  split
  · rename_i heq
    rw [hdrop] at heq
    cases heq
    exact absurd hd (by decide)
  · split
    · simp only [htake, hdrop]
    · rename_i hend
      rw [hdrop] at hend
      simp [endsLexeme, hd] at hend

/-- A word in front of a colon. -/
theorem readWord_colon (hcs : ∀ x ∈ cs, inWord x = true) :
    readWord place c (cs ++ ':' :: rest) =
      .ok (labelToken place (c :: cs),
        ⟨rest, Nat.lt_of_succ_lt (length_lt_of_behind c cs (':' :: rest))⟩) := by
  obtain ⟨htake, hdrop⟩ := takeWhile_append_stop (d := ':') hcs (by decide) rest
  unfold readWord
  split
  · rename_i heq
    rw [hdrop] at heq
    cases heq
    simp only [htake]
  · rename_i hne
    rw [hdrop] at hne
    exact absurd rfl (hne rest)

theorem opensComment_of_opensWord (hc : opensWord c = true) (text : List Char) :
    opensComment (c :: text) = false := by
  refine opensComment_of_ne ?_ text
  rintro rfl
  exact absurd hc (by decide)

theorem scan_word (hc : opensWord c = true) (hcs : ∀ x ∈ cs, inWord x = true)
    (hd : isBlank d = true) (hstop : inWord d = false) :
    ∃ place', scan found place (c :: (cs ++ d :: rest)) =
      scan (found.push (wordToken place (c :: cs))) place' (d :: rest) := by
  rw [scan_lexeme (isBlank_of_opensWord hc) (opensComment_of_opensWord hc _)
    ((if_pos hc).trans (readWord_blank hcs hd hstop))]
  exact ⟨_, rfl⟩

theorem scan_label (hc : opensWord c = true) (hcs : ∀ x ∈ cs, inWord x = true) :
    ∃ place', scan found place (c :: (cs ++ ':' :: rest)) =
      scan (found.push (labelToken place (c :: cs))) place' rest := by
  rw [scan_lexeme (isBlank_of_opensWord hc) (opensComment_of_opensWord hc _)
    ((if_pos hc).trans (readWord_colon hcs))]
  exact ⟨_, rfl⟩

/-- **A mark in a word is an unexpected character.** -/
theorem scan_stray (hc : opensWord c = true) (hcs : ∀ x ∈ cs, inWord x = true)
    (hd : inWord d = false) (hstray : isStray d = true) :
    ∃ e, scan found place (c :: (cs ++ d :: rest)) = .error e := by
  obtain ⟨-, hdrop⟩ := takeWhile_append_stop hcs hd rest
  simp only [isStray, Bool.and_eq_true, decide_eq_true_eq, Bool.not_eq_true'] at hstray
  obtain ⟨hlarge, hblank⟩ := hstray
  have hends : endsLexeme (d :: rest) = false := by
    rw [endsLexeme, hblank, opensComment_of_ne, Bool.false_or]
    rintro rfl
    exact absurd hlarge (by decide)
  have hread : ∃ e, readWord place c (cs ++ d :: rest) = .error e := by
    unfold readWord
    split
    · rename_i heq
      rw [hdrop] at heq
      cases heq
      exact absurd hlarge (by decide)
    · split
      · rename_i hend
        rw [hdrop, hends] at hend
        cases hend
      · exact ⟨_, rfl⟩
  obtain ⟨e, hread⟩ := hread
  rw [scan, if_neg (by simp [isBlank_of_opensWord hc]),
    if_neg (by simp [opensComment_of_opensWord hc]), readLexeme, if_pos hc, hread]
  exact ⟨e, rfl⟩

/-- The digits of a number in front of a blank; `cs` are the digits behind the sigil, or behind the
first digit. -/
theorem readNumber_blank {kind : TokenKind} {number : List Char} {value : UInt32}
    (hcs : ∀ x ∈ cs, x.isDigit = true) (hnumber : (if c.isDigit then c :: cs else cs) = number)
    (hne : number ≠ []) (hvalue : Decimal.word? number = some value) (hd : isBlank d = true)
    (hstop : d.isDigit = false) :
    ∃ h, readNumber place kind c (cs ++ d :: rest) =
      .ok (⟨kind, .number value, place.span (c :: cs).length, String.ofList (c :: cs)⟩,
        ⟨d :: rest, h⟩) := by
  obtain ⟨htake, hdrop⟩ := takeWhile_append_stop hcs hstop rest
  have hends : endsLexeme (d :: rest) = true := by simp [endsLexeme, hd]
  have hfull : number.isEmpty = false := by simpa using hne
  refine ⟨length_lt_of_behind c cs (d :: rest), ?_⟩
  simp only [readNumber, htake, hdrop, hends, if_true, hnumber, hfull, Bool.false_eq_true, if_false,
    hvalue, Shorter.skip]

/-- A number in front of a blank, behind its sigil if it has one. -/
theorem scan_number {kind : TokenKind} {number : List Char} {value : UInt32}
    (hkind : numberKind? c = some kind) (hword : opensWord c = false) (hblank : isBlank c = false)
    (hslash : c ≠ '/') (hcs : ∀ x ∈ cs, x.isDigit = true)
    (hnumber : (if c.isDigit then c :: cs else cs) = number) (hne : number ≠ [])
    (hvalue : Decimal.word? number = some value) (hd : isBlank d = true)
    (hstop : d.isDigit = false) :
    ∃ place' span raw, scan found place (c :: (cs ++ d :: rest)) =
      scan (found.push ⟨kind, .number value, span, raw⟩) place' (d :: rest) := by
  obtain ⟨h, hread⟩ := readNumber_blank hcs hnumber hne hvalue hd hstop
  rw [scan_lexeme hblank (opensComment_of_ne hslash _) (by
    rw [readLexeme, hword, if_neg (by decide), hkind]
    exact hread)]
  exact ⟨_, _, _, rfl⟩

end Lexemes

/-! ### Instructions -/

theorem mnemonic_spec (op : Opcode) : ∃ c cs, op.mnemonic.toList = c :: cs ∧ c.isUpper = true ∧
    ∀ x ∈ cs, isNameChar x = true := by
  cases op <;> exact ⟨_, _, rfl, by decide, List.all_eq_true.mp (by decide)⟩

section Instructions

variable (found : Array Token) (place : Cursor) (rest : List Char) {d : Char}

theorem scan_break :
    scan found place ('\n' :: rest) = scan found (place.next '\n') rest :=
  scan_blank (by decide)

theorem wordToken_mnemonic (op : Opcode) :
    (wordToken place op.mnemonic.toList).kind = .opcode ∧
      (wordToken place op.mnemonic.toList).value = .opcode op := by
  simp [wordToken, String.ofList_toList, Opcode.ofMnemonic?_mnemonic]

theorem scan_opcode (op : Opcode) (hd : isBlank d = true) (hstop : inWord d = false) :
    ∃ place' t, t.kind = .opcode ∧ t.value = .opcode op ∧
      scan found place (op.mnemonic.toList ++ d :: rest) =
        scan (found.push t) place' (d :: rest) := by
  obtain ⟨c, cs, htext, hc, hcs⟩ := mnemonic_spec op
  have hscan : ∃ place', scan found place (c :: (cs ++ d :: rest)) =
      scan (found.push (wordToken place (c :: cs))) place' (d :: rest) :=
    scan_word (opensWord_of_isUpper hc) (fun x hx => inWord_of_isNameChar (hcs x hx)) hd hstop
  obtain ⟨place', hscan⟩ := hscan
  obtain ⟨hkind, hvalue⟩ := wordToken_mnemonic place op
  rw [htext] at hkind hvalue ⊢
  exact ⟨place', _, hkind, hvalue, hscan⟩

/-- The digits of a number open no word and no comment. -/
theorem digit_spec {c : Char} (h : c.isDigit = true) :
    opensWord c = false ∧ isBlank c = false ∧ c ≠ '/' := by
  have hrange := toNat_of_isDigit h
  refine ⟨?_, isBlank_of_toNat (by omega) (by omega), ?_⟩
  · have halpha : c.isAlpha = false := by
      rw [Bool.eq_false_iff]
      intro h
      rcases Bool.or_eq_true_iff.mp h with h | h
      · have := toNat_of_isUpper h
        omega
      · have : 97 ≤ c.toNat := of_decide_eq_true (Bool.and_eq_true_iff.mp h).1
        omega
    have hline : (c == '_') = false := by
      rw [beq_eq_false_iff_ne]
      rintro rfl
      exact absurd h (by decide)
    have hsmall : ¬ 128 ≤ c.toNat := by omega
    simp [opensWord, isLetter, halpha, hline, hsmall]
  · rintro rfl
    exact absurd h (by decide)

/-- A number behind its sigil. -/
theorem scan_sigil {c : Char} {kind : TokenKind} {n : Nat} (hn : n < Decimal.wordCount)
    (hc : c = '#' ∧ kind = .immediate ∨ c = '*' ∧ kind = .addressPointer) :
    ∃ place' t, t.kind = kind ∧ t.value = .number (.ofNat n) ∧
      scan found place (c :: (Nat.toDigits 10 n ++ '\n' :: rest)) =
        scan (found.push t) place' ('\n' :: rest) := by
  have hscan : ∃ place' span raw,
      scan found place (c :: (Nat.toDigits 10 n ++ '\n' :: rest)) =
        scan (found.push ⟨kind, .number (.ofNat n), span, raw⟩) place' ('\n' :: rest) := by
    refine scan_number ?_ ?_ ?_ ?_ (fun x hx => isDigit_of_mem_digits hx) ?_ (Nat.toDigits_ne_nil)
      (word?_toDigits hn) (by decide) (by decide)
    all_goals rcases hc with ⟨rfl, rfl⟩ | ⟨rfl, rfl⟩ <;> first | decide | rfl
  obtain ⟨place', span, raw, hscan⟩ := hscan
  exact ⟨place', _, rfl, rfl, hscan⟩

/-- A number without a sigil. -/
theorem scan_address {n : Nat} (hn : n < Decimal.wordCount) :
    ∃ place' t, t.kind = .address ∧ t.value = .number (.ofNat n) ∧
      scan found place (Nat.toDigits 10 n ++ '\n' :: rest) =
        scan (found.push t) place' ('\n' :: rest) := by
  have hne : Nat.toDigits 10 n ≠ [] := Nat.toDigits_ne_nil
  obtain ⟨c, cs, hdigits⟩ := List.exists_cons_of_ne_nil hne
  have hall : ∀ x ∈ c :: cs, x.isDigit = true := fun x hx =>
    isDigit_of_mem_digits (hdigits ▸ hx)
  have hc := hall c List.mem_cons_self
  obtain ⟨hword, hblank, hslash⟩ := digit_spec hc
  have hscan : ∃ place' span raw, scan found place (c :: (cs ++ '\n' :: rest)) =
      scan (found.push ⟨.address, .number (.ofNat n), span, raw⟩) place'
        ('\n' :: rest) := by
    refine scan_number ?_ hword hblank hslash (fun x hx => hall x (List.mem_cons_of_mem _ hx))
      (if_pos hc) (List.cons_ne_nil _ _) ?_ (by decide) (by decide)
    · simp [numberKind?, hc]
    · rw [← hdigits]
      exact word?_toDigits hn
  obtain ⟨place', span, raw, hscan⟩ := hscan
  rw [hdigits]
  exact ⟨place', _, rfl, rfl, hscan⟩

theorem Operand.toList_text (o : Operand) : o.text.toList =
    match o with
    | .immediate value => '#' :: Nat.toDigits 10 value.toNat
    | .register index => Nat.toDigits 10 index
    | .pointer index => '*' :: Nat.toDigits 10 index := by
  cases o <;> simp [Operand.text, toString]

theorem scan_operand (o : Operand) (ho : ∀ r, o.register? = some r → r < Decimal.wordCount) :
    ∃ place' a, argument? a = some (.operand o a.span) ∧
      scan found place (o.text.toList ++ '\n' :: rest) =
        scan (found.push a) place' ('\n' :: rest) := by
  rw [Operand.toList_text]
  cases o with
  | immediate value =>
    obtain ⟨place', a, hkind, hvalue, hscan⟩ :=
      scan_sigil found place rest value.toNat_lt
        (.inl ⟨rfl, rfl⟩)
    refine ⟨place', a, ?_, hscan⟩
    rw [argument?, hkind, hvalue, UInt32.ofNat_toNat]
  | register index =>
    have hlt := ho index rfl
    obtain ⟨place', a, hkind, hvalue, hscan⟩ :=
      scan_address found place rest hlt
    refine ⟨place', a, ?_, hscan⟩
    rw [argument?, hkind, hvalue]
    show some (Argument.operand _ _) = _
    rw [UInt32.toNat_ofNat_of_lt' hlt]
  | pointer index =>
    have hlt := ho index rfl
    obtain ⟨place', a, hkind, hvalue, hscan⟩ :=
      scan_sigil found place rest hlt (.inr ⟨rfl, rfl⟩)
    refine ⟨place', a, ?_, hscan⟩
    rw [argument?, hkind, hvalue]
    show some (Argument.operand _ _) = _
    rw [UInt32.toNat_ofNat_of_lt' hlt]

end Instructions

end RegisterMachine.Assembly
