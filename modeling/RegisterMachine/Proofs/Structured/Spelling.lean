import RegisterMachine.Assembly.Program.Parser
import RegisterMachine.Proofs.Assembly.Scanning
import RegisterMachine.Proofs.Structured.Contents

/-! # Emitted code, scanned

The text of emitted code is scanned line by line: a comment leaves no token, a label one, and an
instruction that of its opcode and that of its argument.

* `Line.Writable`: a line whose text can be scanned.
* `Lexemes`: the tokens of code.
* `tokenize_text`: the tokens of the text of code. -/

namespace RegisterMachine.Structured

open RegisterMachine.Assembly

/-! ### The texts of lines -/

theorem Mark.toList_text (m : Mark) :
    m.text.toList = m.purpose.text.toList ++ '_' :: Nat.toDigits 10 m.number := by
  simp [Mark.text, toString]

theorem Purpose.text_spec (p : Purpose) : ∃ c cs, p.text.toList = c :: cs ∧ c.isUpper = true ∧
    ∀ x ∈ cs, isNameChar x = true := by
  cases p <;> exact ⟨_, _, rfl, by decide, List.all_eq_true.mp (by decide)⟩

/-- The name of a label is a word in capitals. -/
theorem Mark.text_spec (m : Mark) : ∃ c cs, m.text.toList = c :: cs ∧ c.isUpper = true ∧
    ∀ x ∈ cs, isNameChar x = true := by
  obtain ⟨c, cs, htext, hc, hcs⟩ := m.purpose.text_spec
  refine ⟨c, cs ++ '_' :: Nat.toDigits 10 m.number, ?_, hc, fun x hx => ?_⟩
  · rw [Mark.toList_text, htext, List.cons_append]
  · rcases List.mem_append.mp hx with hx | hx
    · exact hcs x hx
    · rcases List.mem_cons.mp hx with rfl | hx
      · decide
      · simp [isNameChar, isDigit_of_mem_digits hx]

theorem Mark.uppercase_text (m : Mark) : Text.uppercase m.text = m.text := by
  refine uppercase_of_name fun c hc => ?_
  obtain ⟨d, cs, htext, hd, hcs⟩ := m.text_spec
  rw [htext] at hc
  rcases List.mem_cons.mp hc with rfl | hc
  · simp [isNameChar, hd]
  · exact hcs c hc

/-- The low line in the name of a label tells it from a mnemonic. -/
theorem Mark.not_mnemonic (m : Mark) : Opcode.ofMnemonic? m.text = none := by
  rw [Opcode.ofMnemonic?, List.find?_eq_none]
  intro op _ heq
  have hmem : '_' ∈ m.text.toList.map Char.toUpper := by
    refine List.mem_map.mpr ⟨'_', ?_, by decide⟩
    simp [Mark.toList_text]
  rw [← eq_of_beq heq] at hmem
  exact absurd hmem (by cases op <;> decide)

theorem toDigits_injective {n n' : Nat} (h : Nat.toDigits 10 n = Nat.toDigits 10 n') : n = n' := by
  rw [← Nat.ofDigitChars_ten_toDigits (n := n), h, Nat.ofDigitChars_ten_toDigits]

/-- **Marks with one name are one mark**: behind the last low line stands the number. -/
theorem Mark.number_eq_of_text {m m' : Mark} (h : m.text = m'.text) : m.number = m'.number := by
  have hlist : m.text.toList.reverse.takeWhile Char.isDigit =
      m'.text.toList.reverse.takeWhile Char.isDigit := by rw [h]
  have hdigits : ∀ m : Mark, m.text.toList.reverse.takeWhile Char.isDigit =
      (Nat.toDigits 10 m.number).reverse := by
    intro m
    rw [Mark.toList_text, List.reverse_append, List.reverse_cons, List.append_assoc,
      List.singleton_append]
    exact (takeWhile_append_stop
      (fun x hx => isDigit_of_mem_digits (List.mem_reverse.mp hx)) (by decide) _).1
  rw [hdigits, hdigits] at hlist
  exact toDigits_injective (List.reverse_injective hlist)

/-- A line whose text can be scanned. -/
def Line.Writable : Line → Prop
  | comment text => Clean text
  | label _ | halt => True
  | operate opcode operand => opcode ≠ .halt ∧ opcode.accepts (.operand operand {}) = true ∧
      ∀ r, operand.register? = some r → r < Decimal.wordCount
  | jump opcode _ => opcode.isJump = true

/-! ### The tokens of lines -/

/-- **The tokens of code.** -/
inductive Lexemes : Code → List Assembly.Token → Prop
  | nil : Lexemes [] []
  | comment {code ts} (text : String) (rest : Lexemes code ts) : Lexemes (.comment text :: code) ts
  | label {code ts} {m : Mark} {t : Assembly.Token} (kind : t.kind = .label)
    (value : t.value = .name m.text) (rest : Lexemes code ts) :
    Lexemes (.label m :: code) (t :: ts)
  | operate {code ts} {op : Opcode} {o : Operand} {t a : Assembly.Token} (kind : t.kind = .opcode)
    (value : t.value = .opcode op) (argument : argument? a = some (.operand o a.span))
    (rest : Lexemes code ts) : Lexemes (.operate op o :: code) (t :: a :: ts)
  | jump {code ts} {op : Opcode} {m : Mark} {t a : Assembly.Token} (kind : t.kind = .opcode)
    (value : t.value = .opcode op) (argument : argument? a = some (.reference m.text none a.span))
    (rest : Lexemes code ts) : Lexemes (.jump op m :: code) (t :: a :: ts)
  | halt {code ts} {t : Assembly.Token} (kind : t.kind = .opcode)
    (value : t.value = .opcode .halt) (rest : Lexemes code ts) : Lexemes (.halt :: code) (t :: ts)

section Scan

variable (found : Array Assembly.Token) (place : Cursor) (rest : List Char) {d : Char}

theorem wordToken_mark (m : Mark) :
    (wordToken place m.text.toList).kind = .labelReference ∧
      (wordToken place m.text.toList).value = .name m.text := by
  simp [wordToken, String.ofList_toList, m.not_mnemonic, m.uppercase_text]

theorem labelToken_mark (m : Mark) :
    (labelToken place m.text.toList).kind = .label ∧
      (labelToken place m.text.toList).value = .name m.text := by
  simp [labelToken, String.ofList_toList, m.uppercase_text]

theorem scan_mark (m : Mark) : ∃ place' t, t.kind = .labelReference ∧ t.value = .name m.text ∧
    Assembly.scan found place (m.text.toList ++ '\n' :: rest) =
      Assembly.scan (found.push t) place' ('\n' :: rest) := by
  obtain ⟨c, cs, htext, hc, hcs⟩ := m.text_spec
  have hscan : ∃ place', Assembly.scan found place (c :: (cs ++ '\n' :: rest)) =
      Assembly.scan (found.push (wordToken place (c :: cs))) place' ('\n' :: rest) :=
    scan_word (opensWord_of_isUpper hc) (fun x hx => inWord_of_isNameChar (hcs x hx)) (by decide)
      (by decide)
  obtain ⟨place', hscan⟩ := hscan
  obtain ⟨hkind, hvalue⟩ := wordToken_mark place m
  rw [htext] at hkind hvalue ⊢
  exact ⟨place', _, hkind, hvalue, hscan⟩

theorem scan_markLabel (m : Mark) : ∃ place' t, t.kind = .label ∧ t.value = .name m.text ∧
    Assembly.scan found place (m.text.toList ++ ':' :: rest) =
      Assembly.scan (found.push t) place' rest := by
  obtain ⟨c, cs, htext, hc, hcs⟩ := m.text_spec
  have hscan : ∃ place', Assembly.scan found place (c :: (cs ++ ':' :: rest)) =
      Assembly.scan (found.push (labelToken place (c :: cs))) place' rest :=
    scan_label (opensWord_of_isUpper hc) fun x hx => inWord_of_isNameChar (hcs x hx)
  obtain ⟨place', hscan⟩ := hscan
  obtain ⟨hkind, hvalue⟩ := labelToken_mark place m
  rw [htext] at hkind hvalue ⊢
  exact ⟨place', _, hkind, hvalue, hscan⟩

end Scan

/-! ### The tokens of a text -/

/-- **A line is scanned to its tokens.** -/
theorem scan_line (line : Line) (hw : line.Writable) (found : Array Assembly.Token)
    (place : Cursor) (rest : List Char) :
    ∃ place' ts, (∀ code ts', Lexemes code ts' → Lexemes (line :: code) (ts ++ ts')) ∧
      Assembly.scan found place (line.text.toList ++ '\n' :: rest) =
        Assembly.scan (found ++ ts.toArray) place' rest := by
  cases line with
  | comment text =>
    have hclean : '\n' ∉ ' ' :: text.toList := by
      intro h
      rcases List.mem_cons.mp h with h | h
      · exact absurd h (by decide)
      · exact (hw _ h).1 rfl
    have hscan : ∃ place', Assembly.scan found place
        ('/' :: '/' :: (' ' :: text.toList) ++ '\n' :: rest) = Assembly.scan found place' rest :=
      scan_comment hclean
    obtain ⟨place', hscan⟩ := hscan
    refine ⟨place', [], fun code ts' h => .comment text h, ?_⟩
    simpa [Line.text] using hscan
  | label m =>
    obtain ⟨place', t, hkind, hvalue, hscan⟩ :=
      scan_markLabel found place ('\n' :: rest) m
    refine ⟨place'.next '\n', [t], fun code ts' h => .label hkind hvalue h, ?_⟩
    rw [Line.text, String.toList_append, List.append_assoc]
    refine hscan.trans ((scan_break _ _ _).trans ?_)
    simp
  | operate op o =>
    obtain ⟨place₁, t, hkind, hvalue, hscan⟩ := scan_opcode found place
      (o.text.toList ++ '\n' :: rest) op (d := ' ') (by decide) (by decide)
    obtain ⟨place₂, a, hargument, hscan'⟩ :=
      scan_operand (found.push t) (place₁.next ' ') rest o hw.2.2
    refine ⟨place₂.next '\n', [t, a], fun code ts' h => .operate hkind hvalue hargument h, ?_⟩
    have htext : (Line.operate op o).text.toList ++ '\n' :: rest =
        op.mnemonic.toList ++ ' ' :: (o.text.toList ++ '\n' :: rest) := by
      simp [Line.text]
    rw [htext, hscan, scan_blank (by decide), hscan', scan_break]
    rfl
  | jump op m =>
    obtain ⟨place₁, t, hkind, hvalue, hscan⟩ := scan_opcode found place
      (m.text.toList ++ '\n' :: rest) op (d := ' ') (by decide) (by decide)
    obtain ⟨place₂, a, hkind', hvalue', hscan'⟩ := scan_mark (found.push t) (place₁.next ' ') rest m
    have hargument : argument? a = some (.reference m.text none a.span) := by
      rw [argument?, hkind', hvalue']
    refine ⟨place₂.next '\n', [t, a], fun code ts' h => .jump hkind hvalue hargument h, ?_⟩
    have htext : (Line.jump op m).text.toList ++ '\n' :: rest =
        op.mnemonic.toList ++ ' ' :: (m.text.toList ++ '\n' :: rest) := by
      simp [Line.text]
    rw [htext, hscan, scan_blank (by decide), hscan', scan_break]
    rfl
  | halt =>
    obtain ⟨place', t, hkind, hvalue, hscan⟩ := scan_opcode found place rest .halt (d := '\n')
      (by decide) (by decide)
    refine ⟨place'.next '\n', [t], fun code ts' h => .halt hkind hvalue h, ?_⟩
    refine hscan.trans ((scan_break _ _ _).trans ?_)
    simp

theorem scan_code : ∀ (code : Code), (∀ line ∈ code, line.Writable) →
    ∀ (found : Array Assembly.Token) (place : Cursor), ∃ ts, Lexemes code ts ∧
      Assembly.scan found place (code.flatMap fun line => line.text.toList ++ ['\n']) =
        .ok (found ++ ts.toArray)
  | [], _, found, place => ⟨[], .nil, by simp [Assembly.scan]⟩
  | line :: code, hw, found, place => by
    obtain ⟨place', ts, hts, hline⟩ := scan_line line (hw line List.mem_cons_self) found place
      (code.flatMap fun line => line.text.toList ++ ['\n'])
    obtain ⟨ts', hts', hcode⟩ :=
      scan_code code (fun l hl => hw l (List.mem_cons_of_mem _ hl)) (found ++ ts.toArray) place'
    refine ⟨ts ++ ts', hts code ts' hts', ?_⟩
    rw [List.flatMap_cons, List.append_assoc, List.singleton_append, hline, hcode]
    simp

/-- Every line of the text ends with a line break. -/
theorem Code.toList_text : ∀ (code : Code), code ≠ [] →
    code.text.toList = code.flatMap fun line => line.text.toList ++ ['\n']
  | [], h => absurd rfl h
  | [line], _ => by simp [Code.text]
  | line :: line' :: code, _ => by
    have ih := Code.toList_text (line' :: code) (List.cons_ne_nil _ _)
    rw [List.flatMap_cons, ← ih, Code.text, Code.text, List.map_cons, List.map_cons,
      String.intercalate_cons_cons]
    simp

/-- **The tokens of the text of code.** -/
theorem tokenize_text {code : Code} (hne : code ≠ []) (hw : ∀ line ∈ code, line.Writable) :
    ∃ ts, Assembly.tokenize code.text = .ok ts ∧ Lexemes code ts := by
  obtain ⟨ts, hts, hscan⟩ := scan_code code hw #[] {}
  refine ⟨ts, ?_, hts⟩
  rw [Assembly.tokenize, Code.toList_text code hne, hscan]
  simp [Except.map]

end RegisterMachine.Structured
