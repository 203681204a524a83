import RegisterMachine.Proofs.Assembly.Entries
import RegisterMachine.Proofs.Assembly.Lexing

/-! # The grammar of the assembly language

A sentence is a row of groups. A group is a label, or an opcode with the argument that it takes, and
`END` takes none. What is no sentence is refused where the longest sentence in front of it ends.

* `Token.agrees`: kind and value agree, as in all that is read (`agrees_of_tokenize`).
* `Group`, `Sentence`: the grammar, with the entries that it says; `program`: what they make.
* `Stuck`: no group comes next, and the error about it.
* `sentence_or_stuck`: tokens are sentences up to such a point.
* `parse_grammar`: the parser accepts exactly the grammar. -/

namespace RegisterMachine.Assembly

open RegisterMachine.Success RegisterMachine.Text

/-! ### Tokens -/

/-- **Kind and value of the token agree.** -/
def Token.agrees (t : Token) : Bool :=
  match t.kind, t.value with
  | .label, .name _ | .labelReference, .name _ => true
  | .opcode, .opcode _ => true
  | .address, .number _ | .immediate, .number _ | .addressPointer, .number _ => true
  | _, _ => false

section Read

variable {start : Cursor} {c : Char} {text left : List Char} {t : Token}

theorem wordToken_agrees (word : List Char) : (wordToken start word).agrees = true := by
  unfold wordToken
  dsimp only
  split <;> rfl

theorem numberKind?_agrees {kind : TokenKind} (h : numberKind? c = some kind) (n : UInt32)
    (span : Span) (raw : String) : Token.agrees ⟨kind, .number n, span, raw⟩ = true := by
  unfold numberKind? at h
  split at h
  · cases h
    rfl
  · split at h
    · cases h
      rfl
    · split at h
      · cases h
        rfl
      · cases h

theorem read_agrees (h : reader.read start c text = .ok (t, left)) : t.agrees = true := by
  obtain ⟨-, -, rfl⟩ | ⟨-, -, rfl⟩ | ⟨kind, -, hkind, -, hnumber⟩ := read_ok h
  · rfl
  · exact wordToken_agrees _
  · obtain ⟨value, rfl⟩ := numberToken_ok hnumber
    exact numberKind?_agrees hkind _ _ _

theorem scans_agrees {p : Cursor} {text : List Char} {result : Except Error (List Token)}
    (h : reader.Scans p text result) :
    ∀ tokens, result = .ok tokens → ∀ t ∈ tokens, t.agrees = true := by
  induction h with
  | done p =>
    intro tokens htokens
    cases htokens
    exact List.forall_mem_nil _
  | blank _ _ ih | comment _ _ _ ih => exact ih
  | refused => exact nofun
  | lexeme _ _ hread _ ih =>
    intro tokens htokens
    obtain ⟨ts, hts, rfl⟩ := map_ok htokens
    exact List.forall_mem_cons.mpr ⟨read_agrees hread, ih ts hts⟩

/-- **Kinds and values agree in all tokens that are read.** -/
theorem agrees_of_tokenize {source : String} {tokens : List Token}
    (h : tokenize source = .ok tokens) : ∀ t ∈ tokens, t.agrees = true :=
  scans_agrees (tokenize_scans source) tokens h

end Read

/-! ### Groups -/

/-- The operand that a token of this kind spells with its number. -/
inductive Spells : TokenKind → UInt32 → Operand → Prop
  | immediate (n : UInt32) : Spells .immediate n (.immediate n)
  | address (n : UInt32) : Spells .address n (.register n.toNat)
  | pointer (n : UInt32) : Spells .addressPointer n (.pointer n.toNat)

/-- **A group of tokens, and the entry that it says.** -/
inductive Group : List Token → Entry → Prop
  | label (name : String) (span : Span) (raw : String) :
    Group [⟨.label, .name name, span, raw⟩] (.label name span)
  | halt (span : Span) (raw : String) :
    Group [⟨.opcode, .opcode .halt, span, raw⟩] (.instruction ⟨.halt, none, span⟩)
  | jump {op : Opcode} (hop : op ∈ [.goto, .jzero, .jnzero]) (name : String) (span place : Span)
    (raw word : String) :
    Group [⟨.opcode, .opcode op, span, raw⟩, ⟨.labelReference, .name name, place, word⟩]
      (.instruction ⟨op, some (.reference name none place), span⟩)
  | store {kind : TokenKind} {n : UInt32} {o : Operand} (spells : Spells kind n o)
    (hkind : kind ∈ [.address, .addressPointer]) (span place : Span) (raw word : String) :
    Group [⟨.opcode, .opcode .store, span, raw⟩, ⟨kind, .number n, place, word⟩]
      (.instruction ⟨.store, some (.operand o place), span⟩)
  | compute {op : Opcode} {kind : TokenKind} {n : UInt32} {o : Operand}
    (hop : op ∈ [.load, .add, .sub, .mul, .div]) (spells : Spells kind n o) (span place : Span)
    (raw word : String) :
    Group [⟨.opcode, .opcode op, span, raw⟩, ⟨kind, .number n, place, word⟩]
      (.instruction ⟨op, some (.operand o place), span⟩)

/-- **A row of groups.** -/
inductive Sentence : List Token → List Entry → Prop
  | nil : Sentence [] []
  | cons {g ts : List Token} {e : Entry} {es : List Entry} (group : Group g e)
    (rest : Sentence ts es) : Sentence (g ++ ts) (e :: es)

/-- **No group comes next**: the tokens end behind an opcode that takes an argument, they go on with
an argument, or an opcode and the token behind it make no group. -/
inductive Stuck : List Token → Error → Prop
  | missing {t : Token} {op : Opcode} (kind : t.kind = .opcode) (value : t.value = .opcode op)
    (hop : op ≠ .halt) : Stuck [t] (.missingArgument op t.span.stop)
  | unexpected {t : Token} {rest : List Token}
    (kind : t.kind ∈ [.labelReference, .immediate, .address, .addressPointer]) :
    Stuck (t :: rest) (.unexpectedToken t.raw t.span)
  | invalid {t a : Token} {op : Opcode} {rest : List Token} (kind : t.kind = .opcode)
    (value : t.value = .opcode op) (hop : op ≠ .halt) (no : ∀ e, ¬ Group [t, a] e) :
    Stuck (t :: a :: rest) (.invalidArgument op a.raw a.span)

/-! ### Programs -/

def Entry.instruction? : Entry → Option Instruction
  | label _ _ => none
  | instruction i => some i

/-- The label of an entry, addressed by the number of instructions before it. -/
def Entry.label? (before : List Entry) : Entry → Option Label
  | label name span => some ⟨name, (before.filterMap instruction?).length, span⟩
  | instruction _ => none

/-- The labels of entries, in order. -/
def labelsOf (es : List Entry) : List Label :=
  es.zipIdx.filterMap fun entry => entry.1.label? (es.take entry.2)

/-- **The program that entries make.** -/
def program (es : List Entry) : Program where
  instructions := (es.filterMap Entry.instruction?).toArray
  labels := (labelsOf es).toArray

theorem labelsOf_append (es : List Entry) (e : Entry) :
    labelsOf (es ++ [e]) = labelsOf es ++ (e.label? es).toList := by
  have hbefore : (es.zipIdx.filterMap fun entry => entry.1.label? ((es ++ [e]).take entry.2)) =
      labelsOf es := by
    refine List.filterMap_congr fun entry hentry => ?_
    have hlt : entry.2 < es.length := by simpa using (List.mem_zipIdx hentry).2.1
    rw [List.take_append_of_le_length (Nat.le_of_lt hlt)]
  rw [labelsOf, List.zipIdx_append, List.filterMap_append, hbefore]
  cases h : e.label? es <;> simp [h]

theorem program_append (es : List Entry) (e : Entry) :
    program (es ++ [e]) = (program es).push e := by
  rw [program, labelsOf_append, List.filterMap_append]
  cases e with
  | label name span =>
    simp [program, Program.push, Program.pushLabel, Entry.instruction?, Entry.label?]
  | instruction i =>
    simp [program, Program.push, Program.pushInstruction, Entry.instruction?, Entry.label?]

theorem extend_eq_program (es : List Entry) : Program.extend {} es = program es := by
  induction es using List.reverseRecOn with
  | nil => rfl
  | append_singleton es e ih =>
    rw [program_append, ← ih, Program.extend, List.foldl_append]
    rfl

/-! ### Reading sentences -/

section Parsing

variable {g ts rest : List Token} {e : Entry} {es : List Entry} {t a : Token} {op : Opcode}
  {o : Operand} {kind : TokenKind} {n : UInt32} {place : Span} {word : String} {error : Error}

theorem argument?_spells (h : Spells kind n o) :
    argument? ⟨kind, .number n, place, word⟩ = some (.operand o place) := by
  cases h <;> rfl

theorem parseFrom_group (h : Group g e) (program : Program) (rest : List Token) :
    parseFrom program (g ++ rest) = parseFrom (program.push e) rest := by
  cases h with
  | label name span raw => exact parseFrom_label program rest rfl
  | halt span raw => exact parseFrom_halt program rest rfl rfl
  | jump hop name span place raw word =>
    have hjump : ∀ op ∈ [Opcode.goto, .jzero, .jnzero], op ≠ .halt ∧ op.isJump = true := by decide
    obtain ⟨hhalt, haccepts⟩ := hjump _ hop
    exact parseFrom_opcode program rest rfl rfl hhalt rfl haccepts
  | store spells hkind span place raw word =>
    refine parseFrom_opcode program rest rfl rfl nofun (argument?_spells spells) ?_
    cases spells with
    | immediate n => exact absurd hkind (by decide)
    | address n | pointer n => rfl
  | @compute op kind n o hop spells span place raw word =>
    have hcompute : ∀ op ∈ [Opcode.load, .add, .sub, .mul, .div],
        op ≠ .halt ∧ op ≠ .store ∧ op.isJump = false := by decide
    obtain ⟨hhalt, hstore, hjump⟩ := hcompute _ hop
    refine parseFrom_opcode program rest rfl rfl hhalt (argument?_spells spells) ?_
    cases spells <;> simp [Opcode.accepts, hjump, hstore]

/-- **A sentence is read**, and what is behind it next. -/
theorem parseFrom_sentence (h : Sentence ts es) (program : Program) (rest : List Token) :
    parseFrom program (ts ++ rest) = parseFrom (program.extend es) rest := by
  induction h generalizing program with
  | nil => rfl
  | cons group _ ih =>
    rw [List.append_assoc, parseFrom_group group, ih]
    rfl

theorem group_of_spells {span : Span} {raw : String} (hop : op ≠ .halt) (spells : Spells kind n o)
    (haccepts : op.accepts (.operand o place) = true) :
    Group [⟨.opcode, .opcode op, span, raw⟩, ⟨kind, .number n, place, word⟩]
      (.instruction ⟨op, some (.operand o place), span⟩) := by
  by_cases hstore : op = .store
  · subst hstore
    refine .store spells ?_ span place raw word
    cases spells with
    | immediate n => cases haccepts
    | address n | pointer n => decide
  · refine .compute ?_ spells span place raw word
    have hjump : op.isJump = false := isJump_of_accepts haccepts
    cases op <;> first | decide | contradiction

/-- An opcode makes a group with the argument that it takes. -/
theorem group_of_accepts {argument : Argument} {span : Span} {raw : String} (hop : op ≠ .halt)
    (hargument : argument? a = some argument) (haccepts : op.accepts argument = true) :
    Group [⟨.opcode, .opcode op, span, raw⟩, a] (.instruction ⟨op, some argument, span⟩) := by
  obtain ⟨kind, value, place, word⟩ := a
  unfold argument? at hargument
  dsimp only at hargument
  split at hargument
  · cases hargument
    exact group_of_spells hop (.immediate _) haccepts
  · cases hargument
    exact group_of_spells hop (.address _) haccepts
  · cases hargument
    exact group_of_spells hop (.pointer _) haccepts
  · cases hargument
    refine .jump ?_ _ span place raw word
    cases op <;> first | decide | cases haccepts
  · cases hargument

theorem readInstruction_error (h : readInstruction op place a = .error error) :
    error = .invalidArgument op a.raw a.span := by
  unfold readInstruction at h
  split at h
  · split at h
    · cases h
    · cases h
      rfl
  · cases h
    rfl

/-- **What stops a sentence is refused.** -/
theorem parseFrom_stuck (h : Stuck rest error) (program : Program) :
    parseFrom program rest = .error error := by
  cases h with
  | @missing t op hkind hvalue hop =>
    rw [parseFrom, hkind, hvalue]
    cases op <;> first | rfl | exact absurd rfl hop
  | @unexpected t rest hkind =>
    rw [parseFrom]
    obtain ⟨kind, value, place, word⟩ := t
    cases kind <;> first | rfl | exact absurd hkind (by simp)
  | @invalid t a op rest hkind hvalue hop hno =>
    obtain ⟨kind, value, span, raw⟩ := t
    cases hkind
    cases hvalue
    have hread : readInstruction op span a = .error (.invalidArgument op a.raw a.span) := by
      cases hread : readInstruction op span a with
      | error e => rw [readInstruction_error hread]
      | ok i =>
        obtain ⟨argument, hargument, haccepts, -⟩ := readInstruction_spells hread
        exact absurd (group_of_accepts hop hargument haccepts) (hno _)
    rw [parseFrom]
    cases op <;> first | exact absurd rfl hop | simp only [hread]

end Parsing

/-! ### The first point that cannot be passed -/

section Stuck

variable {g g' ts ts' more more' rest tokens : List Token} {e e' : Entry} {es es' : List Entry}
  {error : Error}

/-- **Tokens open with a group**, or no group comes next. -/
theorem group_or_stuck {t : Token} (h : t.agrees = true) (rest : List Token) :
    (∃ g ts e, t :: rest = g ++ ts ∧ Group g e) ∨ ∃ error, Stuck (t :: rest) error := by
  by_cases hargument : t.kind ∈ [TokenKind.labelReference, .immediate, .address, .addressPointer]
  · exact .inr ⟨_, .unexpected hargument⟩
  obtain ⟨kind, value, span, raw⟩ := t
  cases kind with
  | label =>
    cases value with
    | name name => exact .inl ⟨_, rest, _, rfl, .label name span raw⟩
    | number n | opcode op => cases h
  | opcode =>
    cases value with
    | name name | number n => cases h
    | opcode op =>
      by_cases hop : op = .halt
      · subst hop
        exact .inl ⟨_, rest, _, rfl, .halt span raw⟩
      cases rest with
      | nil => exact .inr ⟨_, .missing rfl rfl hop⟩
      | cons a rest =>
        by_cases hgroup : ∃ e, Group [⟨.opcode, .opcode op, span, raw⟩, a] e
        · obtain ⟨e, hgroup⟩ := hgroup
          exact .inl ⟨_, rest, e, rfl, hgroup⟩
        · exact .inr ⟨_, .invalid rfl rfl hop fun e he => hgroup ⟨e, he⟩⟩
  | labelReference | immediate | address | addressPointer => exact absurd (by simp) hargument

theorem Group.length_pos (h : Group g e) : 0 < g.length := by
  cases h <;> exact Nat.succ_pos _

/-- **Tokens are a sentence up to their end**, or up to a point where no group comes next. -/
theorem sentence_or_stuck (tokens : List Token) (h : ∀ t ∈ tokens, t.agrees = true) :
    ∃ before rest es, tokens = before ++ rest ∧ Sentence before es ∧
      (rest = [] ∨ ∃ error, Stuck rest error) := by
  match tokens with
  | [] => exact ⟨[], [], [], rfl, .nil, .inl rfl⟩
  | t :: following =>
    obtain ⟨g, ts, e, htokens, hgroup⟩ | hstuck :=
      group_or_stuck (h t List.mem_cons_self) following
    · have hpos := hgroup.length_pos
      have hlength := congrArg List.length htokens
      simp only [List.length_cons, List.length_append] at hlength
      have hshorter : ts.length < following.length + 1 := by omega
      have hts : ∀ u ∈ ts, u.agrees = true := fun u hu =>
        h u (by rw [htokens]; exact List.mem_append_right g hu)
      obtain ⟨before, rest, es, rfl, hsentence, hrest⟩ := sentence_or_stuck ts hts
      exact ⟨g ++ before, rest, e :: es, by rw [htokens, List.append_assoc], .cons hgroup hsentence,
        hrest⟩
    · exact ⟨[], t :: following, [], rfl, .nil, .inr hstuck⟩
termination_by tokens.length

/-- The token is a group by itself. -/
def Token.Alone (t : Token) : Prop := t.kind = .label ∨ t.kind = .opcode ∧ t.value = .opcode .halt

theorem Token.Alone.halt {t : Token} {op : Opcode} (h : t.Alone) (hkind : t.kind = .opcode)
    (hvalue : t.value = .opcode op) : op = .halt := by
  obtain hlabel | ⟨-, hhalt⟩ := h
  · cases hkind.symm.trans hlabel
  · cases hvalue.symm.trans hhalt
    rfl

/-- A group is one token, or an opcode with another token. -/
theorem Group.shape (h : Group g e) : (∃ t, g = [t] ∧ t.Alone) ∨
    ∃ t a op, g = [t, a] ∧ t.kind = .opcode ∧ t.value = .opcode op ∧ op ≠ .halt := by
  cases h with
  | label name span raw => exact .inl ⟨_, rfl, .inl rfl⟩
  | halt span raw => exact .inl ⟨_, rfl, .inr ⟨rfl, rfl⟩⟩
  | jump hop =>
    refine .inr ⟨_, _, _, rfl, rfl, rfl, ?_⟩
    rintro rfl
    exact absurd hop (by decide)
  | store => exact .inr ⟨_, _, _, rfl, rfl, rfl, nofun⟩
  | compute hop =>
    refine .inr ⟨_, _, _, rfl, rfl, rfl, ?_⟩
    rintro rfl
    exact absurd hop (by decide)

/-- The first token decides where a group ends. -/
theorem Group.ends (h : Group g e) (h' : Group g' e') (heq : g ++ more = g' ++ more') :
    g = g' ∧ more = more' := by
  refine List.append_inj heq ?_
  obtain ⟨t, rfl, ht⟩ | ⟨t, a, op, rfl, hkind, hvalue, hop⟩ := h.shape <;>
    obtain ⟨t', rfl, ht'⟩ | ⟨t', a', op', rfl, hkind', hvalue', hop'⟩ := h'.shape <;>
    cases (List.cons.inj heq).1
  · rfl
  · exact absurd (ht.halt hkind' hvalue') hop'
  · exact absurd (ht'.halt hkind hvalue) hop
  · rfl

theorem Stuck.not_group (h : Stuck rest error) (hgroup : Group g e) : rest ≠ g ++ more := by
  rintro rfl
  obtain ⟨t, rfl, ht⟩ | ⟨t, a, op, rfl, hkind, hvalue, hop⟩ := hgroup.shape
  · cases h with
    | missing hkind hvalue hop => exact hop (ht.halt hkind hvalue)
    | unexpected hargument => obtain hkind | ⟨hkind, -⟩ := ht <;> simp [hkind] at hargument
    | invalid hkind hvalue hop => exact hop (ht.halt hkind hvalue)
  · cases h with
    | unexpected hargument => simp [hkind] at hargument
    | invalid _ _ _ hno => exact hno e hgroup

/-- **The sentence in front of such a point is the longest.** -/
theorem Sentence.longest (h : Sentence ts es) (hstuck : Stuck rest error) (h' : Sentence ts' es')
    (hfront : ts' <+: ts ++ rest) : ts'.length ≤ ts.length := by
  induction h generalizing ts' es' with
  | nil =>
    cases h' with
    | nil => exact Nat.le_refl 0
    | cons group _ =>
      obtain ⟨more, heq⟩ := hfront
      rw [List.append_assoc] at heq
      exact absurd heq.symm (hstuck.not_group group)
  | @cons g ts e es group _ ih =>
    cases h' with
    | nil => exact Nat.zero_le _
    | @cons g' ts'' e' es'' group' rest' =>
      obtain ⟨more, heq⟩ := hfront
      rw [List.append_assoc, List.append_assoc] at heq
      obtain ⟨rfl, htail⟩ := group'.ends group heq
      rw [List.length_append, List.length_append]
      exact Nat.add_le_add_left (ih rest' ⟨more, htail⟩) _

end Stuck

/-- **The parser accepts exactly the grammar.** What it reads is what the sentence says. What is no
sentence is refused for the first point where the longest sentence in front cannot go on. -/
theorem parse_grammar {tokens : List Token} (h : ∀ t ∈ tokens, t.agrees = true) :
    (∀ p, parse tokens = .ok p ↔ ∃ es, Sentence tokens es ∧ p = program es) ∧
    ∀ error, parse tokens = .error error ↔ ∃ before rest es, tokens = before ++ rest ∧
      Sentence before es ∧ Stuck rest error ∧
      ∀ ts es', ts <+: tokens → Sentence ts es' → ts.length ≤ before.length := by
  have hsentence : ∀ {es}, Sentence tokens es → parse tokens = .ok (program es) := by
    intro es hes
    have hread := parseFrom_sentence hes {} []
    rw [List.append_nil, extend_eq_program] at hread
    exact hread
  have hstuck : ∀ {before rest es error}, tokens = before ++ rest → Sentence before es →
      Stuck rest error → parse tokens = .error error := by
    rintro before rest es error rfl hes hrest
    rw [parse, parseFrom_sentence hes, parseFrom_stuck hrest]
  obtain ⟨before, rest, es, htokens, hes, rfl | ⟨error, hrest⟩⟩ := sentence_or_stuck tokens h
  · rw [List.append_nil] at htokens
    subst htokens
    have hparse := hsentence hes
    refine ⟨fun p => ⟨fun hp => ?_, ?_⟩, fun error => ⟨fun he => ?_, ?_⟩⟩
    · cases hparse.symm.trans hp
      exact ⟨es, hes, rfl⟩
    · rintro ⟨es', hes', rfl⟩
      exact hsentence hes'
    · cases hparse.symm.trans he
    · rintro ⟨before', rest', es', htokens, hes', hrest, -⟩
      exact hstuck htokens hes' hrest
  · have hparse := hstuck htokens hes hrest
    refine ⟨fun p => ⟨fun hp => ?_, ?_⟩, fun error' => ⟨fun he => ?_, ?_⟩⟩
    · cases hparse.symm.trans hp
    · rintro ⟨es', hes', rfl⟩
      exact hsentence hes'
    · cases hparse.symm.trans he
      refine ⟨before, rest, es, htokens, hes, hrest, fun ts es' hfront hts => ?_⟩
      exact hes.longest hrest hts (htokens ▸ hfront)
    · rintro ⟨before', rest', es', htokens', hes', hrest', -⟩
      exact hstuck htokens' hes' hrest'

/-- A jump at the end, without its label. -/
theorem goto_stuck : ∃ tokens, tokenize "x: load #1 goto" = .ok tokens ∧
    (∀ t ∈ tokens, t.agrees = true) ∧ ∃ before rest es, tokens = before ++ rest ∧
      Sentence before es ∧ Stuck rest (.missingArgument .goto ⟨1, 16, 0⟩) ∧
      ∀ ts es', ts <+: tokens → Sentence ts es' → ts.length ≤ before.length := by
  have h : (tokenize "x: load #1 goto").toOption.map parse =
      some (.error (.missingArgument .goto ⟨1, 16, 0⟩)) := by decide +kernel
  obtain ⟨tokens, htokens, hparse⟩ := Option.map_eq_some_iff.mp h
  have hagrees := agrees_of_tokenize (ok_of_toOption htokens)
  exact ⟨tokens, ok_of_toOption htokens, hagrees, ((parse_grammar hagrees).2 _).mp hparse⟩

end RegisterMachine.Assembly
