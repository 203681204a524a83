import Mathlib.Data.List.TakeWhile
import RegisterMachine.Proofs.Assembly.Entries
import RegisterMachine.Proofs.Assembly.Scanning

/-! # Listings, assembled again

A listing writes the names of labels in capitals. Most of them are words again, and the listing is
assembled to the program that was listed. Two things can go wrong: the capitals of a word may be
spelled with marks, which belong to no word, and they may be a mnemonic, which a jump does not take
for a name.

* `Named`, `Entry.Lexical`: what a source can contain.
* `scan_entry`, `refused_entry`: the line of an entry, scanned.
* `Program.Relistable`: the names of a program are fit for a listing.
* `listing_assembles_again`: exactly then is the listing assembled, to the same program. -/

namespace RegisterMachine.Assembly

open RegisterMachine.Success RegisterMachine.Text

/-! ### What a source contains -/

/-- The name of a label or of a reference is a word in capitals. -/
def Named (t : Token) : Prop :=
  t.kind = .label ∨ t.kind = .labelReference →
    ∃ word, isWord word = true ∧ t.value = .name (uppercase word)

section Scanned

variable {place : Cursor} {c : Char} {text : List Char} {t : Token} {rest : Shorter (c :: text)}

theorem readWord_named (hc : opensWord c = true) (h : readWord place c text = .ok (t, rest)) :
    Named t := by
  have hword : isWord (String.ofList (c :: text.takeWhile inWord)) = true :=
    isWord_iff.mpr ⟨c, _, String.toList_ofList, hc, fun x hx => List.mem_takeWhile_imp hx⟩
  unfold readWord at h
  split at h
  · cases h
    exact fun _ => ⟨_, hword, rfl⟩
  · split at h
    · cases h
      intro hkind
      unfold wordToken at hkind ⊢
      dsimp only at hkind ⊢
      split at hkind
      · obtain hkind | hkind := hkind <;> cases hkind
      · exact ⟨_, hword, rfl⟩
    · cases h

theorem numberKind?_named {kind : TokenKind} (h : numberKind? c = some kind) :
    kind ≠ .label ∧ kind ≠ .labelReference := by
  unfold numberKind? at h
  split at h
  · cases h
    exact ⟨nofun, nofun⟩
  · split at h
    · cases h
      exact ⟨nofun, nofun⟩
    · split at h
      · cases h
        exact ⟨nofun, nofun⟩
      · cases h

theorem readNumber_kind {kind : TokenKind} (h : readNumber place kind c text = .ok (t, rest)) :
    t.kind = kind := by
  unfold readNumber at h
  dsimp only at h
  generalize (if c.isDigit = true then c :: text.takeWhile Char.isDigit
    else text.takeWhile Char.isDigit) = number at h
  split at h
  · split at h
    · cases h
    · split at h
      · cases h
      · cases h
        rfl
  · cases h

theorem readLexeme_named (h : readLexeme place c text = .ok (t, rest)) : Named t := by
  unfold readLexeme at h
  split at h
  · rename_i hc
    exact readWord_named hc h
  · split at h
    · rename_i kind hkind
      obtain ⟨hlabel, hreference⟩ := numberKind?_named hkind
      rw [← readNumber_kind h] at hlabel hreference
      exact fun hnamed => absurd hnamed (not_or.mpr ⟨hlabel, hreference⟩)
    · cases h

end Scanned

/-- **The tokens that are scanned** come behind those already found, and their names are words in
capitals. -/
theorem scan_named (found : Array Token) (place : Cursor) (text : List Char) {tokens : Array Token}
    (h : scan found place text = .ok tokens) :
    ∃ ts, tokens = found ++ ts ∧ ∀ t ∈ ts, Named t := by
  fun_induction scan found place text with
  | case1 found place =>
    cases h
    exact ⟨#[], (Array.append_empty).symm, fun _ ht => absurd ht (Array.not_mem_empty _)⟩
  | case2 _ _ _ _ _ ih => exact ih h
  | case3 _ _ _ _ _ _ ih => exact ih h
  | case4 => cases h
  | case5 found place c text hblank _ token rest _ hread ih =>
    obtain ⟨ts, rfl, hts⟩ := ih h
    refine ⟨#[token] ++ ts, ?_, fun t ht => ?_⟩
    · rw [← Array.append_assoc]
      rfl
    · obtain ht | ht := Array.mem_append.mp ht
      · rw [Array.mem_singleton.mp ht]
        exact readLexeme_named hread
      · exact hts t ht

/-- **An entry of a source**: names are words in capitals, and registers are written as words. -/
inductive Entry.Lexical : Entry → Prop
  | label {word : String} (span : Span) (h : isWord word = true) :
    Lexical (.label (uppercase word) span)
  | halt (span : Span) : Lexical (.instruction ⟨.halt, none, span⟩)
  | operand {op : Opcode} {o : Operand} (place span : Span) (hop : op ≠ .halt)
    (accepts : op.accepts (.operand o place) = true)
    (fits : ∀ r, o.register? = some r → r < Decimal.wordCount) :
    Lexical (.instruction ⟨op, some (.operand o place), span⟩)
  | jump {op : Opcode} {word : String} (place span : Span) (hop : op.isJump = true)
    (h : isWord word = true) :
    Lexical (.instruction ⟨op, some (.reference (uppercase word) none place), span⟩)

/-- The argument that a named token spells. -/
theorem lexical_argument {op : Opcode} {t : Token} {a : Argument} (span : Span) (hop : op ≠ .halt)
    (ht : Named t) (h : argument? t = some a) (haccepts : op.accepts a = true) :
    Entry.Lexical (.instruction ⟨op, some a, span⟩) := by
  unfold argument? at h
  split at h
  · cases h
    exact .operand _ _ hop haccepts nofun
  · cases h
    exact .operand _ _ hop haccepts fun r hr => Option.some.inj hr ▸ UInt32.toNat_lt _
  · cases h
    exact .operand _ _ hop haccepts fun r hr => Option.some.inj hr ▸ UInt32.toNat_lt _
  · rename_i name hkind hvalue
    obtain ⟨word, hword, hname⟩ := ht (.inr hkind)
    rw [hvalue] at hname
    cases hname
    cases h
    exact .jump _ _ haccepts hword
  · cases h

theorem groups_lexical {tokens : List Token} {es : List Entry} (h : Groups tokens es)
    (hnamed : ∀ t ∈ tokens, Named t) : ∀ e ∈ es, e.Lexical := by
  induction h with
  | nil => exact nofun
  | @label ts es t kind rest ih =>
    obtain ⟨hfirst, hrest⟩ := List.forall_mem_cons.mp hnamed
    obtain ⟨word, hword, hvalue⟩ := hfirst (.inl kind)
    have hname : t.name = uppercase word := by rw [Token.name, hvalue]
    refine List.forall_mem_cons.mpr ⟨?_, ih hrest⟩
    rw [hname]
    exact .label _ hword
  | halt kind value rest ih =>
    exact List.forall_mem_cons.mpr ⟨.halt _, ih (List.forall_mem_cons.mp hnamed).2⟩
  | operation kind value hop spells accepts rest ih =>
    obtain ⟨-, hrest⟩ := List.forall_mem_cons.mp hnamed
    obtain ⟨hargument, hrest⟩ := List.forall_mem_cons.mp hrest
    exact List.forall_mem_cons.mpr
      ⟨lexical_argument _ hop hargument spells accepts, ih hrest⟩

/-! ### Lines -/

/-- The names of the entry are words, and no name that is jumped to is a mnemonic. -/
def Entry.Relistable : Entry → Prop
  | .label name _ => isWord name = true
  | .instruction i => ∀ name target place, i.argument = some (.reference name target place) →
      isWord name = true ∧ Opcode.ofMnemonic? name = none

section Lines

variable (found : Array Token) (place : Cursor) (rest : List Char) {name word : String}

/-- **A name at the end of a line** is a reference, unless it is a mnemonic. -/
theorem scan_reference (h : isWord (uppercase word) = true) : ∃ place' a,
    (argument? a = match Opcode.ofMnemonic? (uppercase word) with
      | none => some (.reference (uppercase word) none a.span)
      | some _ => none) ∧
      scan found place ((uppercase word).toList ++ '\n' :: rest) =
        scan (found.push a) place' ('\n' :: rest) := by
  obtain ⟨c, cs, htext, hc, hcs⟩ := isWord_iff.mp h
  have hscan : ∃ place', scan found place (c :: (cs ++ '\n' :: rest)) =
      scan (found.push (wordToken place (c :: cs))) place' ('\n' :: rest) :=
    scan_word hc hcs (by decide) (by decide)
  obtain ⟨place', hscan⟩ := hscan
  rw [← htext] at hscan
  refine ⟨place', _, ?_, by rw [htext]; exact hscan⟩
  unfold wordToken
  dsimp only
  rw [String.ofList_toList]
  cases Opcode.ofMnemonic? (uppercase word) with
  | none => simp [argument?, uppercase_uppercase]
  | some op => rfl

/-- A name in front of a colon. -/
theorem scan_nameLabel (h : isWord name = true) :
    ∃ place', scan found place (name.toList ++ ':' :: rest) =
      scan (found.push (labelToken place name.toList)) place' rest := by
  obtain ⟨c, cs, htext, hc, hcs⟩ := isWord_iff.mp h
  rw [htext]
  exact scan_label hc hcs

/-- **Capitals with a mark among them are refused.** -/
theorem refused_name (h : isWord word = true) (hno : isWord (uppercase word) ≠ true) :
    ∃ e, scan found place ((uppercase word).toList ++ rest) = .error e := by
  obtain ⟨c, cs, htext, hc, hcs⟩ := uppercase_isWord h
  have hmark : ∃ x ∈ cs, ¬ inWord x = true := by
    by_contra hall
    push Not at hall
    exact hno (isWord_iff.mpr ⟨c, cs, htext, hc, hall⟩)
  have hdrop : cs.dropWhile inWord ≠ [] := by
    obtain ⟨x, hx, hno⟩ := hmark
    intro hnil
    exact hno (List.dropWhile_eq_nil_iff.mp hnil x hx)
  obtain ⟨d, behind, hd⟩ := List.exists_cons_of_ne_nil hdrop
  have hno : inWord d = false := by
    have := List.head_dropWhile_not inWord hdrop
    simpa [hd] using this
  have hsplit : cs = cs.takeWhile inWord ++ d :: behind := by
    rw [← hd, List.takeWhile_append_dropWhile]
  have hstray : isStray d = true := by
    have hmem : d ∈ cs := by
      rw [hsplit]
      exact List.mem_append_right _ List.mem_cons_self
    exact (hcs d hmem).resolve_left (by simp [hno])
  rw [htext, hsplit, List.cons_append, List.append_assoc, List.cons_append]
  exact scan_stray hc (fun x hx => List.mem_takeWhile_imp hx) hno hstray

/-- The text of an instruction with an argument. -/
theorem toList_operation (op : Opcode) (a : Argument) (span : Span) :
    (Entry.instruction ⟨op, some a, span⟩).line.toList ++ '\n' :: rest =
      op.mnemonic.toList ++ ' ' :: (a.text.toList ++ '\n' :: rest) := by
  simp [Entry.line, Instruction.text, toString]

theorem toList_label (name : String) (span : Span) :
    (Entry.label name span).line.toList ++ '\n' :: rest = name.toList ++ ':' :: '\n' :: rest := by
  simp [Entry.line, toString]

/-- **The line of an entry whose names are fit** is read as this entry, at another place. -/
theorem scan_entry {e : Entry} (h : e.Lexical) (hr : e.Relistable) : ∃ place' ts e',
    e'.unplaced = e.unplaced ∧
      (∀ program ts', parseFrom program (ts ++ ts') = parseFrom (program.push e') ts') ∧
        scan found place (e.line.toList ++ '\n' :: rest) =
          scan (found ++ ts.toArray) place' rest := by
  cases h with
  | @label word span hword =>
    obtain ⟨place', hscan⟩ := scan_nameLabel found place ('\n' :: rest) hr
    refine ⟨place'.next '\n', [labelToken place (uppercase word).toList], .label _ _, ?_,
      fun program ts' => parseFrom_label program ts' rfl, ?_⟩
    · simp [Entry.unplaced, labelToken, Token.name, String.ofList_toList, uppercase_uppercase]
    · rw [toList_label, hscan, scan_break]
      simp
  | halt span =>
    obtain ⟨place', t, hkind, hvalue, hscan⟩ := scan_opcode found place rest .halt (d := '\n')
      (by decide) (by decide)
    refine ⟨place'.next '\n', [t], .instruction ⟨.halt, none, t.span⟩, rfl,
      fun program ts' => parseFrom_halt program ts' hkind hvalue, ?_⟩
    refine hscan.trans ((scan_break _ _ _).trans ?_)
    simp
  | @operand op o span' span hop haccepts hfits =>
    obtain ⟨place₁, t, hkind, hvalue, hscan⟩ := scan_opcode found place
      (o.text.toList ++ '\n' :: rest) op (d := ' ') (by decide) (by decide)
    obtain ⟨place₂, a, hargument, hscan'⟩ :=
      scan_operand (found.push t) (place₁.next ' ') rest o hfits
    rw [accepts_operand, ← accepts_operand op o a.span] at haccepts
    refine ⟨place₂.next '\n', [t, a], .instruction ⟨op, some (.operand o a.span), t.span⟩, rfl,
      fun program ts' => parseFrom_opcode program ts' hkind hvalue hop hargument haccepts, ?_⟩
    rw [toList_operation]
    refine hscan.trans ((scan_blank (by decide)).trans (hscan'.trans (scan_break _ _ _)))
  | @jump op word span' span hop hword =>
    obtain ⟨hname, hfree⟩ := hr _ _ _ rfl
    obtain ⟨place₁, t, hkind, hvalue, hscan⟩ := scan_opcode found place
      ((uppercase word).toList ++ '\n' :: rest) op (d := ' ') (by decide) (by decide)
    obtain ⟨place₂, a, hargument, hscan'⟩ :=
      scan_reference (found.push t) (place₁.next ' ') rest hname
    rw [hfree] at hargument
    refine ⟨place₂.next '\n', [t, a],
      .instruction ⟨op, some (.reference (uppercase word) none a.span), t.span⟩, rfl,
      fun program ts' =>
        parseFrom_opcode program ts' hkind hvalue (ne_halt_of_isJump hop) hargument hop, ?_⟩
    rw [toList_operation]
    exact hscan.trans ((scan_blank (by decide)).trans (hscan'.trans (scan_break _ _ _)))

/-- **The line of an entry whose names are not fit** is refused, when it is scanned or when it is
read. -/
theorem refused_entry {e : Entry} (h : e.Lexical) (hr : ¬ e.Relistable) :
    (∃ error, scan found place (e.line.toList ++ '\n' :: rest) = .error error) ∨
      ∃ place' ts, (∀ program ts', ∃ error, parseFrom program (ts ++ ts') = .error error) ∧
        scan found place (e.line.toList ++ '\n' :: rest) =
          scan (found ++ ts.toArray) place' rest := by
  cases h with
  | @label word span hword =>
    rw [toList_label]
    exact .inl (refused_name found place _ hword hr)
  | halt span => exact absurd (fun name target place ha => nomatch ha) hr
  | operand place span hop accepts fits =>
    exact absurd (fun name target place ha => nomatch ha) hr
  | @jump op word span' span hop hword =>
    obtain ⟨place₁, t, hkind, hvalue, hscan⟩ := scan_opcode found place
      ((uppercase word).toList ++ '\n' :: rest) op (d := ' ') (by decide) (by decide)
    rw [toList_operation]
    by_cases hname : isWord (uppercase word) = true
    · obtain ⟨place₂, a, hargument, hscan'⟩ :=
        scan_reference (found.push t) (place₁.next ' ') rest hname
      have hmnemonic : ∃ op', Opcode.ofMnemonic? (uppercase word) = some op' := by
        rw [← Option.ne_none_iff_exists']
        intro hfree
        refine hr fun name target place ha => ?_
        cases ha
        exact ⟨hname, hfree⟩
      obtain ⟨op', hop'⟩ := hmnemonic
      rw [hop'] at hargument
      refine .inr ⟨place₂.next '\n', [t, a], fun program ts' =>
        parseFrom_refused program ts' hkind hvalue (ne_halt_of_isJump hop) hargument, ?_⟩
      exact hscan.trans ((scan_blank (by decide)).trans (hscan'.trans (scan_break _ _ _)))
    · obtain ⟨error, hscan'⟩ :=
        refused_name (found.push t) (place₁.next ' ') ('\n' :: rest) hword hname
      exact .inl ⟨error, hscan.trans ((scan_blank (by decide)).trans hscan')⟩

end Lines

/-! ### Listings -/

/-- The text of entries, line by line. -/
def entriesText (es : List Entry) : List Char := es.flatMap fun e => e.line.toList ++ ['\n']

theorem entriesText_cons (e : Entry) (es : List Entry) :
    entriesText (e :: es) = e.line.toList ++ '\n' :: entriesText es := by
  rw [entriesText, List.flatMap_cons, List.append_assoc, List.singleton_append]
  rfl

theorem scan_entries {es : List Entry} (h : ∀ e ∈ es, e.Lexical) (hr : ∀ e ∈ es, e.Relistable)
    (found : Array Token) (place : Cursor) : ∃ ts es',
    es'.map Entry.unplaced = es.map Entry.unplaced ∧
      (∀ program, parseFrom program ts = .ok (program.extend es')) ∧
        scan found place (entriesText es) = .ok (found ++ ts.toArray) := by
  induction es generalizing found place with
  | nil =>
    refine ⟨[], [], rfl, fun program => rfl, ?_⟩
    rw [entriesText, List.flatMap_nil, scan]
    simp
  | cons e es ih =>
    obtain ⟨hfirst, hrest⟩ := List.forall_mem_cons.mp h
    obtain ⟨hfirst', hrest'⟩ := List.forall_mem_cons.mp hr
    obtain ⟨place', ts, e', he', hparse, hscan⟩ :=
      scan_entry found place (entriesText es) hfirst hfirst'
    obtain ⟨ts', es', hes', hparse', hscan'⟩ := ih hrest hrest' (found ++ ts.toArray) place'
    refine ⟨ts ++ ts', e' :: es', by rw [List.map_cons, List.map_cons, he', hes'],
      fun program => (hparse program ts').trans (hparse' _), ?_⟩
    rw [entriesText_cons, hscan, hscan']
    simp

theorem refused_entries {es : List Entry} (h : ∀ e ∈ es, e.Lexical)
    (hr : ¬ ∀ e ∈ es, e.Relistable) (found : Array Token) (place : Cursor) {tokens : Array Token}
    (hscan : scan found place (entriesText es) = .ok tokens) :
    ∃ ts, tokens = found ++ List.toArray ts ∧
      ∀ program, ∃ error, parseFrom program ts = .error error := by
  induction es generalizing found place with
  | nil => exact absurd (fun _ => nofun) hr
  | cons e es ih =>
    obtain ⟨hfirst, hrest⟩ := List.forall_mem_cons.mp h
    rw [entriesText_cons] at hscan
    by_cases hfit : e.Relistable
    · have hr' : ¬ ∀ e ∈ es, e.Relistable := fun hall =>
        hr (List.forall_mem_cons.mpr ⟨hfit, hall⟩)
      obtain ⟨place', ts, e', -, hparse, hline⟩ :=
        scan_entry found place (entriesText es) hfirst hfit
      obtain ⟨ts', rfl, hrefused⟩ := ih hrest hr' _ _ (hline.symm.trans hscan)
      refine ⟨ts ++ ts', by simp, fun program => ?_⟩
      rw [hparse]
      exact hrefused _
    · obtain ⟨error, hline⟩ | ⟨place', ts, hrefused, hline⟩ :=
        refused_entry found place (entriesText es) hfirst hfit
      · cases hline.symm.trans hscan
      -- the line is scanned, and reading stops in it: the tokens behind it do not matter
      · obtain ⟨⟨ts'⟩, rfl, -⟩ := scan_named _ _ _ (hline.symm.trans hscan)
        exact ⟨ts ++ ts', by simp, fun program => hrefused program ts'⟩

theorem toList_join (lines : List String) : (String.join (lines.map (· ++ "\n"))).toList =
    lines.flatMap fun line => line.toList ++ ['\n'] := by
  induction lines with
  | nil => rfl
  | cons line lines ih => simp [String.join_cons, ih]

/-! ### Programs -/

/-- **The names of a program are fit for a listing.** Those of the labels are words, and those that
are jumped to are no mnemonics. -/
structure Program.Relistable (p : Program) : Prop where
  labels : ∀ l ∈ p.labels, isWord l.name = true
  references : ∀ i ∈ p.instructions, ∀ name target place,
    i.argument = some (.reference name target place) → Opcode.ofMnemonic? name = none

/-- The argument names no label, or one whose name is no mnemonic. -/
def Argument.isFree : Argument → Bool
  | operand _ _ => true
  | reference name _ _ => (Opcode.ofMnemonic? name).isNone

theorem Program.relistable_iff_all {p : Program} : p.Relistable ↔
    (p.labels.all fun l => isWord l.name) = true ∧
      (p.instructions.all fun i => i.argument.all Argument.isFree) = true := by
  rw [Array.all_eq_true', Array.all_eq_true']
  refine ⟨fun ⟨hwords, hfree⟩ => ⟨hwords, fun i hi => ?_⟩, fun ⟨hwords, hfree⟩ => ⟨hwords, ?_⟩⟩
  · rw [Option.all_eq_true]
    rintro (⟨o, place⟩ | ⟨name, target, place⟩) ha
    · rfl
    · exact Option.isNone_iff_eq_none.mpr (hfree i hi name target place ha)
  · intro i hi name target place ha
    exact Option.isNone_iff_eq_none.mp ((Option.all_eq_true _ _).mp (hfree i hi) _ ha)

instance (p : Program) : Decidable p.Relistable :=
  decidable_of_iff _ Program.relistable_iff_all.symm

/-- The names of a resolved program are those of its entries. -/
theorem relistable_iff {p : Program} {es : List Entry}
    (h : Program.resolve (Program.extend {} es) = .ok p) :
    p.Relistable ↔ ∀ e ∈ es, e.Relistable := by
  obtain ⟨hlabels, hall⟩ := resolve_ok h
  have hword : (∀ l ∈ p.labels, isWord l.name = true) ↔
      ∀ name span, .label name span ∈ es → isWord name = true := by
    rw [hlabels]
    refine ⟨fun hwords name span hmem => ?_, fun hwords l hl => ?_⟩
    · obtain ⟨l, hl, rfl⟩ := exists_label_extend.mpr (.inr ⟨span, hmem⟩)
      exact hwords l hl
    · obtain ⟨l', hl', -⟩ | ⟨span, hmem⟩ := exists_label_extend.mp ⟨l, hl, rfl⟩
      · cases Array.not_mem_empty l' hl'
      · exact hwords l.name span hmem
  refine ⟨fun hp e he => ?_, fun hes => ⟨?_, fun j hj name target place ha => ?_⟩⟩
  · cases e with
    | label name span => exact hword.mp hp.labels name span he
    | instruction i =>
      intro name target place ha
      have hi : i ∈ (Program.extend {} es).instructions := mem_instructions_extend.mpr (.inr he)
      obtain ⟨j, hj, hij⟩ := exists_of_mem_left hall (Array.mem_toList_iff.mpr hi)
      obtain ⟨-, ⟨-, hno⟩ | ⟨name', target', label, place', hi', hl, hj'⟩⟩ :=
        instruction_resolve_ok hij
      · exact absurd ha (hno name target place)
      · cases hi'.symm.trans ha
        refine ⟨?_, hp.references j (Array.mem_toList_iff.mp hj) _ _ _ hj'⟩
        have hname : label.name = name :=
          eq_of_beq (Array.find?_some (p := fun l : Label => l.name == name) hl)
        rw [← hname]
        exact hp.labels label (hlabels ▸ Array.mem_of_find?_eq_some hl)
  · exact hword.mpr fun name span hmem => hes _ hmem
  · obtain ⟨i, hi, hij⟩ := exists_of_mem_right hall (Array.mem_toList_iff.mpr hj)
    obtain hi | hi := mem_instructions_extend.mp (Array.mem_toList_iff.mp hi)
    · cases Array.not_mem_empty i hi
    · obtain ⟨-, ⟨rfl, hno⟩ | ⟨name', target', label, place', hi', -, hj'⟩⟩ :=
        instruction_resolve_ok hij
      · exact absurd ha (hno name target place)
      · cases hj'.symm.trans ha
        exact (hes _ hi _ _ _ hi').2

/-! ### The theorem -/

/-- **When a listing is assembled again**, and to what. The listing of an assembled program is
assembled exactly if the names of the program are fit for it. What it is assembled to is the
program, but for the places in the source: the instructions, the addresses of their jumps, and the
labels in their order. -/
theorem listing_assembles_again {source : String} {n : Nat} {p : Program}
    (h : assemble source n = .ok p) :
    ((∃ q, assemble (p.listing false) n = .ok q) ↔ p.Relistable) ∧
      ∀ q, assemble (p.listing false) n = .ok q → q.unplaced = p.unplaced := by
  obtain ⟨hmax, tokens, parsed, htokens, hparsed, hresolved, hbounds⟩ := assemble_stages h
  obtain ⟨es, hgroups, rfl⟩ := parseFrom_groups {} tokens hparsed
  have hlexical : ∀ e ∈ es, e.Lexical := by
    obtain ⟨found, hfound, rfl⟩ := map_ok htokens
    obtain ⟨ts, rfl, hnamed⟩ := scan_named _ _ _ hfound
    exact groups_lexical hgroups fun t ht => hnamed t (by simpa using ht)
  have htext : (p.listing false).toList = entriesText es := by
    have hempty : Program.listingLines {} false = [] := rfl
    rw [Program.listing, toList_join, listingLines_resolve hresolved,
      listingLines_extend es fun l hl => absurd hl (Array.not_mem_empty l), hempty, List.nil_append,
      List.flatMap_map]
    rfl
  have hfit := relistable_iff hresolved
  have hagain : p.Relistable →
      ∃ q, assemble (p.listing false) n = .ok q ∧ q.unplaced = p.unplaced := by
    intro hp
    obtain ⟨ts, es', hsame, hparse, hscan⟩ := scan_entries hlexical (hfit.mp hp) #[] {}
    have htokens' : tokenize (p.listing false) = .ok ts := by
      rw [tokenize, htext, hscan]
      simp [Except.map]
    have hunplaced : (Program.extend {} es').unplaced = (Program.extend {} es).unplaced := by
      rw [Program.unplaced_extend, Program.unplaced_extend, hsame]
    obtain ⟨q, hq, hequal, hchecked⟩ := Program.checked_of_unplaced hunplaced hresolved hbounds
    exact ⟨q, assemble_of_stages hmax htokens' (hparse {}) hq hchecked, hequal⟩
  have hrefused : ∀ q, assemble (p.listing false) n = .ok q → p.Relistable := by
    intro q hq
    by_contra hno
    obtain ⟨-, ts, parsed', hts, hparsed', -, -⟩ := assemble_stages hq
    obtain ⟨found, hfound, rfl⟩ := map_ok hts
    rw [htext] at hfound
    obtain ⟨ts, rfl, herror⟩ :=
      refused_entries hlexical (fun hall => hno (hfit.mpr hall)) _ _ hfound
    obtain ⟨error, herror⟩ := herror {}
    have hlist : (#[] ++ ts.toArray).toList = ts := by simp
    rw [parse, hlist, herror] at hparsed'
    cases hparsed'
  refine ⟨⟨fun ⟨q, hq⟩ => hrefused q hq, fun hp => ?_⟩, fun q hq => ?_⟩
  · obtain ⟨q, hq, -⟩ := hagain hp
    exact ⟨q, hq⟩
  · obtain ⟨q', hq', hequal⟩ := hagain (hrefused q hq)
    cases hq.symm.trans hq'
    exact hequal

/-- Labels of one name at one place, a label behind the last instruction, and a name that is longer
in capitals. -/
theorem strasse_assembles_again : ∃ p q,
    assemble "x: stra\u00DFe: load #7 // seven\nX: goto strasse store *1 end:" 1 = .ok p ∧
      p.Relistable ∧
      p.listing false = "X:\nSTRASSE:\nLOAD #7\nX:\nGOTO STRASSE\nSTORE *1\nEND:\n" ∧
      assemble (p.listing false) 1 = .ok q ∧ q.unplaced = p.unplaced := by
  have h : (assemble
        "x: stra\u00DFe: load #7 // seven\nX: goto strasse store *1 end:" 1).toOption.map
      (fun p => (p.listing false, decide p.Relistable)) =
        some ("X:\nSTRASSE:\nLOAD #7\nX:\nGOTO STRASSE\nSTORE *1\nEND:\n", true) := by
    decide +kernel
  obtain ⟨p, hp, hfacts⟩ := Option.map_eq_some_iff.mp h
  obtain ⟨hlisting, hfit⟩ := Prod.mk.inj hfacts
  obtain ⟨hiff, hequal⟩ := listing_assembles_again (ok_of_toOption hp)
  obtain ⟨q, hq⟩ := hiff.mpr (of_decide_eq_true hfit)
  exact ⟨p, q, ok_of_toOption hp, of_decide_eq_true hfit, hlisting, hq, hequal q hq⟩

/-- **Listings that are not assembled.** The capitals of the iota with dialytika and tonos are an
iota and two marks. The capital of the long s is the letter of a mnemonic. -/
theorem marked_listing_refused :
    (∃ p e, assemble "\u0390: GOTO \u0390" 0 = .ok p ∧
      p.listing false = "\u0399\u0308\u0301:\nGOTO \u0399\u0308\u0301\n" ∧
      assemble (p.listing false) 0 = .error e) ∧
    ∃ p e, assemble "\u017Fub: GOTO \u017Fub" 0 = .ok p ∧ p.listing false = "SUB:\nGOTO SUB\n" ∧
      assemble (p.listing false) 0 = .error e := by
  have hrefused : ∀ {source text : String},
      ((assemble source 0).toOption.map fun p =>
        (p.listing false, (assemble (p.listing false) 0).toOption.isSome)) = some (text, false) →
      ∃ p e, assemble source 0 = .ok p ∧ p.listing false = text ∧
        assemble (p.listing false) 0 = .error e := by
    intro source text h
    obtain ⟨p, hp, hfacts⟩ := Option.map_eq_some_iff.mp h
    obtain ⟨hlisting, hnone⟩ := Prod.mk.inj hfacts
    cases hagain : assemble (p.listing false) 0 with
    | ok q =>
      rw [hagain] at hnone
      cases hnone
    | error e => exact ⟨p, e, ok_of_toOption hp, hlisting, hagain⟩
  exact ⟨hrefused (by decide +kernel), hrefused (by decide +kernel)⟩

end RegisterMachine.Assembly
