import RegisterMachine.Proofs.Assembly.Entries
import RegisterMachine.Proofs.Assembly.Lexing

/-! # Either case

Sources that differ only in the case of ASCII letters are the same to the assembler. Its tokens keep
the lexemes as they were written, and so do its errors; kinds, values and places do not depend on
the case, and the program is made of these.

* `toUpper_invariant`: a property of characters that does not tell a letter from its capital.
* `capitals`, `Token.inCapitals`, `Error.inCapitals`: a text and what is read of it, in ASCII
  capitals.
* `read_capitals`, `tokenize_capitals`: reading a text in capitals.
* `parse_capitals`: capitals are parsed to the same program.
* `SameButCase`, `assemble_either_case`: the theorem. -/

namespace RegisterMachine.Assembly

open RegisterMachine.Success RegisterMachine.Text

/-! ### Characters -/

section Characters

variable {c : Char} {α : Type}

/-- What is the same of the 26 letters and their capitals is so of every character. -/
theorem toUpper_invariant {f : Char → α}
    (h : ∀ code ∈ List.range' 97 26, f (Char.ofNat code).toUpper = f (Char.ofNat code)) (c : Char) :
    f c.toUpper = f c := by
  by_cases hlower : c.val ≥ 'a'.val ∧ c.val ≤ 'z'.val
  · have hmem : c.toNat ∈ List.range' 97 26 := by
      have hfirst : 97 ≤ c.toNat := hlower.1
      have hlast : c.toNat ≤ 122 := hlower.2
      exact List.mem_range'_1.mpr ⟨hfirst, by omega⟩
    have hc := h c.toNat hmem
    rwa [Char.ofNat_toNat] at hc
  · have hsame : c.toUpper = c := dif_neg hlower
    rw [hsame]

theorem isBlank_toUpper (c : Char) : isBlank c.toUpper = isBlank c :=
  toUpper_invariant (by decide) c

theorem opensWord_toUpper (c : Char) : opensWord c.toUpper = opensWord c :=
  toUpper_invariant (by decide) c

theorem inWord_toUpper (c : Char) : inWord c.toUpper = inWord c :=
  toUpper_invariant (by decide) c

theorem isDigit_toUpper (c : Char) : c.toUpper.isDigit = c.isDigit :=
  toUpper_invariant (by decide) c

theorem numberKind?_toUpper (c : Char) : numberKind? c.toUpper = numberKind? c :=
  toUpper_invariant (by decide) c

theorem upperChars_toUpper (c : Char) : upperChars c.toUpper = upperChars c :=
  toUpper_invariant (by decide) c

theorem toUpper_toUpper (c : Char) : c.toUpper.toUpper = c.toUpper :=
  toUpper_invariant (by decide) c

/-- A character that is no letter is met in capitals where it is met at all. -/
theorem beq_toUpper {d : Char} (hd : d.isAlpha = false) (c : Char) :
    (c.toUpper == d) = (c == d) := by
  have hletters : ∀ code ∈ List.range' 97 26, (Char.ofNat code).isAlpha = true ∧
      (Char.ofNat code).toUpper.isAlpha = true := by decide
  have hne : ∀ x : Char, x.isAlpha = true → (x == d) = false := by
    intro x hx
    rw [beq_eq_false_iff_ne]
    rintro rfl
    cases hd.symm.trans hx
  refine toUpper_invariant (f := (· == d)) (fun code hcode => ?_) c
  obtain ⟨hlower, hupper⟩ := hletters code hcode
  rw [hne _ hlower, hne _ hupper]

theorem toUpper_eq_iff {d : Char} (hd : d.isAlpha = false) (c : Char) : c.toUpper = d ↔ c = d := by
  rw [← beq_iff_eq, beq_toUpper hd, beq_iff_eq]

theorem toUpper_of_isDigit (h : c.isDigit = true) : c.toUpper = c := by
  refine dif_neg fun hlower => ?_
  have hfirst : 97 ≤ c.toNat := hlower.1
  have hdigit := toNat_of_isDigit h
  omega

theorem toUpper_of_numberKind? {kind : TokenKind} (h : numberKind? c = some kind) :
    c.toUpper = c := by
  unfold numberKind? at h
  split at h
  · rename_i hdigit
    exact toUpper_of_isDigit hdigit
  · split at h
    · rename_i hsigil
      rw [hsigil]
      rfl
    · split at h
      · rename_i hsigil
        rw [hsigil]
        rfl
      · cases h

end Characters

/-! ### Texts -/

/-- **A text in ASCII capitals.** -/
def capitals (text : List Char) : List Char := text.map Char.toUpper

section Texts

variable {p : Char → Bool} (text word : List Char)

theorem takeWhile_capitals (hp : ∀ c : Char, p c.toUpper = p c) :
    (capitals text).takeWhile p = capitals (text.takeWhile p) := by
  have hcomp : p ∘ Char.toUpper = p := funext hp
  rw [capitals, List.takeWhile_map, hcomp]
  rfl

theorem dropWhile_capitals (hp : ∀ c : Char, p c.toUpper = p c) :
    (capitals text).dropWhile p = capitals (text.dropWhile p) := by
  have hcomp : p ∘ Char.toUpper = p := funext hp
  rw [capitals, List.dropWhile_map, hcomp]
  rfl

theorem capitals_digits (h : ∀ c ∈ word, c.isDigit = true) : capitals word = word := by
  rw [capitals, List.map_congr_left fun c hc => toUpper_of_isDigit (h c hc), List.map_id']

theorem bne_break_toUpper (c : Char) : (c.toUpper != '\n') = (c != '\n') :=
  congrArg not (beq_toUpper (by decide) c)

theorem opensComment_capitals (c : Char) :
    opensComment (c.toUpper :: capitals text) = opensComment (c :: text) := by
  have hslash : ∀ c : Char, (c.toUpper == '/') = (c == '/') := beq_toUpper (by decide)
  rw [opensComment_cons, opensComment_cons, hslash]
  cases text with
  | nil => rfl
  | cons d text =>
    show (c == '/' && d.toUpper == '/') = (c == '/' && d == '/')
    rw [hslash]

theorem endsLexeme_capitals : endsLexeme (capitals text) = endsLexeme text := by
  cases text with
  | nil => rfl
  | cons c text =>
    show (isBlank c.toUpper || opensComment (c.toUpper :: capitals text)) = _
    rw [isBlank_toUpper, opensComment_capitals]
    rfl

theorem uppercase_capitals : uppercase (String.ofList (capitals word)) =
    uppercase (String.ofList word) := by
  rw [uppercase, uppercase, String.toList_ofList, String.toList_ofList, capitals, List.flatMap_map,
    List.flatMap_congr fun c _ => upperChars_toUpper c]

theorem capitals_capitals : capitals (capitals text) = capitals text := by
  rw [capitals, capitals, List.map_map]
  exact List.map_congr_left fun c _ => toUpper_toUpper c

theorem ofMnemonic?_capitals : Opcode.ofMnemonic? (String.ofList (capitals word)) =
    Opcode.ofMnemonic? (String.ofList word) := by
  have hsame := capitals_capitals word
  unfold Opcode.ofMnemonic?
  rw [String.toList_ofList, String.toList_ofList]
  rw [capitals] at hsame
  rw [hsame]
  rfl

theorem next_toUpper (place : Cursor) (c : Char) : place.next c.toUpper = place.next c := by
  rw [Cursor.next, Cursor.next]
  simp only [toUpper_eq_iff (d := '\n') (by decide)]

end Texts

/-! ### Tokens and errors -/

/-- The lexeme of the token in capitals. -/
def Token.inCapitals (t : Token) : Token := { t with raw := String.ofList (capitals t.raw.toList) }

/-- **What the error quotes of the source** in capitals. -/
def Error.inCapitals : Error → Error
  | .unexpectedCharacter c span => .unexpectedCharacter c.toUpper span
  | .unexpectedToken raw span => .unexpectedToken (String.ofList (capitals raw.toList)) span
  | .invalidArgument op raw span => .invalidArgument op (String.ofList (capitals raw.toList)) span
  | e => e

/-- The same in capitals, with `f` for the answer. -/
def readCapitals {α β : Type} (f : α → β) (x : Except Error α) : Except Error β :=
  (x.map f).mapError Error.inCapitals

section Lexemes

variable {start : Cursor} {c : Char} {text rest word digits : List Char} {kind : TokenKind}

theorem wordToken_capitals (start : Cursor) (word : List Char) :
    wordToken start (capitals word) = (wordToken start word).inCapitals := by
  have hlength : (capitals word).length = word.length := List.length_map _
  unfold wordToken
  dsimp only
  rw [ofMnemonic?_capitals, hlength, uppercase_capitals]
  cases Opcode.ofMnemonic? (String.ofList word) <;>
    simp only [Token.inCapitals, String.toList_ofList]

theorem labelToken_capitals (start : Cursor) (word : List Char) :
    labelToken start (capitals word) = (labelToken start word).inCapitals := by
  have hlength : (capitals word).length = word.length := List.length_map _
  have hcolon : capitals (word ++ [':']) = capitals word ++ [':'] := List.map_append
  rw [labelToken, labelToken, Token.inCapitals, uppercase_capitals, hlength, String.toList_ofList,
    hcolon]

theorem strayCharacter_capitals (start : Cursor) (text : List Char) :
    strayCharacter start (capitals text) = (strayCharacter start text).inCapitals := by
  cases text <;> rfl

theorem wordEnd_capitals (start : Cursor) (word text : List Char) :
    wordEnd start (capitals word) (capitals text) =
      readCapitals (Prod.map Token.inCapitals capitals) (wordEnd start word text) := by
  obtain ⟨rest, rfl⟩ | hcolon := colon_cases text
  · show Except.ok (labelToken start (capitals word), capitals rest) = _
    rw [labelToken_capitals]
    rfl
  · have hcolon' : ∀ rest, capitals text ≠ ':' :: rest := by
      intro rest heq
      cases text with
      | nil => cases heq
      | cons c text =>
        have hc : c = ':' := (toUpper_eq_iff (by decide) c).mp (List.cons.inj heq).1
        exact hcolon text (by rw [hc])
    have hlength : (capitals word).length = word.length := List.length_map _
    rw [wordEnd_of_ne hcolon, wordEnd_of_ne hcolon', endsLexeme_capitals, wordToken_capitals,
      strayCharacter_capitals, hlength]
    split <;> rfl

/-- A number has no letters. -/
theorem numberToken_capitals (hkind : numberKind? c = some kind)
    (hdigits : ∀ x ∈ digits, x.isDigit = true) :
    readCapitals Token.inCapitals (numberToken start kind c digits) =
      numberToken start kind c digits := by
  have hlexeme : capitals (c :: digits) = c :: digits := by
    show c.toUpper :: capitals digits = _
    rw [toUpper_of_numberKind? hkind, capitals_digits digits hdigits]
  dsimp only [numberToken]
  generalize (if c.isDigit then c :: digits else digits) = number
  split
  · rfl
  · split
    · rfl
    · simp only [readCapitals, Except.map, Except.mapError, Token.inCapitals, String.toList_ofList,
        hlexeme]

theorem numberEnd_capitals (hkind : numberKind? c = some kind)
    (hdigits : ∀ x ∈ digits, x.isDigit = true) (text : List Char) :
    numberEnd start kind c digits (capitals text) =
      readCapitals (Prod.map Token.inCapitals capitals) (numberEnd start kind c digits text) := by
  have hpair : ∀ x : Except Error Token, readCapitals (Prod.map Token.inCapitals capitals)
      (x.map (·, text)) = (readCapitals Token.inCapitals x).map (·, capitals text) := by
    intro x
    cases x <;> rfl
  rw [numberEnd, numberEnd, endsLexeme_capitals, strayCharacter_capitals]
  split
  · rw [hpair, numberToken_capitals hkind hdigits]
  · rfl

/-- **A lexeme in capitals** is read like the lexeme. -/
theorem read_capitals (start : Cursor) (c : Char) (text : List Char) :
    reader.read start c.toUpper (capitals text) =
      readCapitals (Prod.map Token.inCapitals capitals) (reader.read start c text) := by
  obtain hc | ⟨hc, ⟨kind, hkind⟩ | hkind⟩ := read_cases c
  · rw [read_word hc, read_word (by rwa [opensWord_toUpper]), takeWhile_capitals _ inWord_toUpper,
      dropWhile_capitals _ inWord_toUpper]
    exact wordEnd_capitals start (c :: text.takeWhile inWord) _
  · have hdigits : ∀ x ∈ text.takeWhile Char.isDigit, x.isDigit = true :=
      fun x => List.mem_takeWhile_imp
    rw [toUpper_of_numberKind? hkind, read_number hc hkind, read_number hc hkind,
      takeWhile_capitals _ isDigit_toUpper, dropWhile_capitals _ isDigit_toUpper,
      capitals_digits _ hdigits]
    exact numberEnd_capitals hkind hdigits _
  · rw [read_other hc hkind, read_other (by rwa [opensWord_toUpper]) (by rwa [numberKind?_toUpper])]
    rfl

end Lexemes

/-! ### Sources -/

/-- **What a text in capitals comes to.** -/
theorem scans_capitals {p : Cursor} {text : List Char} {x : Except Error (List Token)}
    (h : reader.Scans p text x) :
    reader.Scans p (capitals text) (readCapitals (List.map Token.inCapitals) x) := by
  induction h with
  | done p => exact .done p
  | @blank p c text x hblank _ ih =>
    rw [← next_toUpper p c] at ih
    exact .blank (by rwa [isBlank_toUpper]) ih
  | @comment p c text x hsolid hopens _ ih =>
    show reader.Scans p (c.toUpper :: capitals text) _
    refine .comment (by rwa [isBlank_toUpper]) (by rwa [opensComment_capitals]) ?_
    have hline : restOfLine (capitals text) = capitals (restOfLine text) :=
      takeWhile_capitals text bne_break_toUpper
    have hafter : afterLine (capitals text) = capitals (afterLine text) :=
      dropWhile_capitals text bne_break_toUpper
    have hlength : (capitals (restOfLine text)).length = (restOfLine text).length :=
      List.length_map _
    rw [hline, hafter, hlength]
    exact ih
  | @refused p c text e hsolid hcode hread =>
    show reader.Scans p (c.toUpper :: capitals text) _
    refine .refused (by rwa [isBlank_toUpper]) (by rwa [opensComment_capitals]) ?_
    rw [read_capitals, hread]
    rfl
  | @lexeme p c text t left x hsolid hcode hread _ ih =>
    have hread' : reader.read p c.toUpper (capitals text) = .ok (t.inCapitals, capitals left) := by
      rw [read_capitals, hread]
      rfl
    have hlexeme : reader.Scans p (c.toUpper :: capitals text)
        ((readCapitals (List.map Token.inCapitals) x).map (t.inCapitals :: ·)) :=
      .lexeme (by rwa [isBlank_toUpper]) (by rwa [opensComment_capitals]) hread' ih
    cases x <;> exact hlexeme

theorem tokenize_capitals (s : String) : tokenize (String.ofList (capitals s.toList)) =
    readCapitals (List.map Token.inCapitals) (tokenize s) := by
  have hscans := tokenize_scans (String.ofList (capitals s.toList))
  rw [String.toList_ofList] at hscans
  exact hscans.unique (scans_capitals (tokenize_scans s))

theorem readInstruction_capitals (op : Opcode) (span : Span) (t : Token) :
    readInstruction op span t.inCapitals =
      (readInstruction op span t).mapError Error.inCapitals := by
  have hargument : argument? t.inCapitals = argument? t := rfl
  rw [readInstruction, hargument, readInstruction]
  cases argument? t with
  | none => rfl
  | some a =>
    dsimp only
    split <;> rfl

/-- **Tokens in capitals make the same program.** -/
theorem parseFrom_capitals (program : Program) (tokens : List Token) :
    parseFrom program (tokens.map Token.inCapitals) =
      (parseFrom program tokens).mapError Error.inCapitals := by
  fun_induction parseFrom program tokens with
  | case1 program => rfl
  | case2 program t rest hkind ih =>
    exact (parseFrom_label program (t := t.inCapitals) _ hkind).trans ih
  | case3 program t rest hkind hvalue ih =>
    exact (parseFrom_halt program (t := t.inCapitals) _ hkind hvalue).trans ih
  | case4 program t hkind op hop hvalue =>
    have hkind' : t.inCapitals.kind = .opcode := hkind
    have hvalue' : t.inCapitals.value = .opcode op := hvalue
    rw [List.map_cons, List.map_nil, parseFrom, hkind', hvalue']
    cases op <;> first | rfl | exact absurd rfl hop
  | case5 program t hkind op hop hvalue a rest e hread =>
    have hkind' : t.inCapitals.kind = .opcode := hkind
    have hvalue' : t.inCapitals.value = .opcode op := hvalue
    have hread' : readInstruction op t.inCapitals.span a.inCapitals = .error e.inCapitals := by
      rw [readInstruction_capitals, Token.inCapitals, hread]
      rfl
    rw [List.map_cons, List.map_cons, parseFrom, hkind', hvalue']
    cases op <;> first | exact absurd rfl hop | simp only [hread', Except.mapError]
  | case6 program t hkind op hop hvalue a rest i hread ih =>
    obtain ⟨argument, hargument, haccepts, rfl⟩ := readInstruction_spells hread
    exact (parseFrom_opcode program (t := t.inCapitals) (a := a.inCapitals) _ hkind hvalue hop
      hargument haccepts).trans ih
  | case7 program t rest hkind _ hvalue =>
    have hkind' : t.inCapitals.kind = .opcode := hkind
    rw [List.map_cons, parseFrom, hkind']
    obtain ⟨kind, value, span, raw⟩ := t
    cases value with
    | opcode op => exact absurd rfl (hvalue op)
    | name name | number n => rfl
  | case8 program t rest hlabel hopcode =>
    rw [List.map_cons, parseFrom]
    obtain ⟨kind, value, span, raw⟩ := t
    cases kind with
    | label => exact absurd rfl hlabel
    | opcode => exact absurd rfl hopcode
    | labelReference | address | immediate | addressPointer => rfl

/-- **The texts differ in the case of ASCII letters only.** -/
def SameButCase (s s' : String) : Prop := capitals s.toList = capitals s'.toList

/-- The errors differ in the case of what they quote only. -/
def Error.SameButCase (e e' : Error) : Prop := e.inCapitals = e'.inCapitals

theorem tokenize_alike {s s' : String} (h : SameButCase s s') :
    Alike Error.SameButCase
      (fun ts ts' => ts.map Token.inCapitals = ts'.map Token.inCapitals)
      (tokenize s) (tokenize s') := by
  refine alike_of_map (k := Error.inCapitals) ?_
  have hcapitals := tokenize_capitals s
  rw [show capitals s.toList = capitals s'.toList from h] at hcapitals
  exact hcapitals.symm.trans (tokenize_capitals s')

theorem parse_alike {ts ts' : List Token}
    (h : ts.map Token.inCapitals = ts'.map Token.inCapitals) :
    Alike Error.SameButCase Eq (parse ts) (parse ts') := by
  have hparse : (parse ts).mapError Error.inCapitals = (parse ts').mapError Error.inCapitals := by
    rw [parse, parse, ← parseFrom_capitals, ← parseFrom_capitals, h]
  refine alike_of_map (f := id) (g := id) (k := Error.inCapitals) ?_
  rwa [Except.map_id]

end RegisterMachine.Assembly

namespace RegisterMachine

open Assembly Success

/-- The failures differ in the case of what they quote only. -/
def Failure.SameButCase : Failure → Failure → Prop
  | .assembly e, .assembly e' => e.SameButCase e'
  | f, f' => f = f'

theorem Failure.SameButCase.refl (f : Failure) : f.SameButCase f := by
  cases f <;> rfl

/-- **Sources that differ in case only are assembled to one program**, or refused alike. -/
theorem assemble_alike {s s' : String} (h : SameButCase s s') (registers : Nat) :
    Alike Failure.SameButCase Eq (assemble s registers) (assemble s' registers) := by
  have hassembly : ∀ e e' : Assembly.Error, e.SameButCase e' →
      (Failure.assembly e).SameButCase (Failure.assembly e') := fun _ _ => id
  refine Alike.bind (.refl .refl _) fun _ _ _ => ?_
  refine Alike.bind ((tokenize_alike h).mapError hassembly) fun ts ts' hts => ?_
  refine Alike.bind ((parse_alike hts).mapError hassembly) fun p p' hp => ?_
  subst hp
  exact .refl .refl _

/-- **The case of ASCII letters does not matter to the assembler.** One of the sources is assembled
just if the other is, and then to the same program: instructions, resolved labels, table of labels
and places. The errors differ in what they quote only. -/
theorem assemble_either_case {s s' : String} (h : SameButCase s s') (registers : Nat) :
    (∀ p, assemble s registers = .ok p ↔ assemble s' registers = .ok p) ∧
    ∀ f, assemble s registers = .error f →
      ∃ f', assemble s' registers = .error f' ∧ f.SameButCase f' := by
  obtain ⟨f, f', hf, hf', hsame⟩ | ⟨p, p', hp, hp', rfl⟩ := (assemble_alike h registers).cases
  · rw [hf, hf']
    refine ⟨fun p => ⟨nofun, nofun⟩, fun g hg => ?_⟩
    cases hg
    exact ⟨f', rfl, hsame⟩
  · rw [hp, hp']
    exact ⟨fun q => Iff.rfl, nofun⟩

/-- Names, mnemonics and a comment. -/
theorem loop_either_case :
    SameButCase "Loop: load #1 // Step\ngoto LOOP" "lOOP: LOAD #1 // step\nGoto loop" ∧
      ∃ p, p.labels.map (·.name) = #["LOOP"] ∧
        assemble "Loop: load #1 // Step\ngoto LOOP" 1 = .ok p ∧
        assemble "lOOP: LOAD #1 // step\nGoto loop" 1 = .ok p := by
  have hsame : SameButCase "Loop: load #1 // Step\ngoto LOOP"
      "lOOP: LOAD #1 // step\nGoto loop" := by
    unfold SameButCase
    decide
  have h : (assemble "Loop: load #1 // Step\ngoto LOOP" 1).toOption.map
      (·.labels.map (·.name)) = some #["LOOP"] := by decide +kernel
  obtain ⟨p, hp, hnames⟩ := Option.map_eq_some_iff.mp h
  have hassembled := ok_of_toOption hp
  exact ⟨hsame, p, hnames, hassembled, ((assemble_either_case hsame 1).1 p).mp hassembled⟩

end RegisterMachine
