import RegisterMachine.Assembly.Token.Coverage
import RegisterMachine.Proofs.Structured.Analyzed
import RegisterMachine.Proofs.Structured.Assembled

/-! # From code to text and back

The text of emitted code is assembled to what it says: an instruction for each of its lines that is
no comment and no label, and a label for each line that is one, at the number of instructions before
it. All of this is read off the text alone.

* `isCommentLine`, `isLabelLine`: the kinds of lines in a text.
* `writtenInstructions`, `writtenLabels`: the instructions and labels in the lines of a text.
* `compiled_assembles`: the theorem. -/

namespace RegisterMachine.Assembly

/-- The line is a comment. -/
def isCommentLine (line : List Char) : Bool := ['/', '/'].isPrefixOf line

/-- The line is a label, with its colon. -/
def isLabelLine (line : List Char) : Bool := !isCommentLine line && line.getLast? == some ':'

/-- **The instructions in the lines of a text**: the lines that are no comments and no labels. -/
def writtenInstructions (lines : List (List Char)) : List (List Char) :=
  lines.filter fun line => !isCommentLine line && !isLabelLine line

/-- **The labels in the lines of a text** behind so many instructions, each with the number of
instructions before it. -/
def writtenLabels : Nat → List (List Char) → List (List Char × Nat)
  | _, [] => []
  | n, line :: rest =>
    if isCommentLine line then writtenLabels n rest
    else if isLabelLine line then (line, n) :: writtenLabels n rest
    else writtenLabels (n + 1) rest

theorem splitOn_flatMap : ∀ {texts : List (List Char)}, (∀ text ∈ texts, '\n' ∉ text) →
    (texts.flatMap fun text => text ++ ['\n']).splitOn '\n' = texts ++ [[]]
  | [], _ => rfl
  | text :: texts, h => by
    have htext : ∀ c ∈ text, (c == '\n') = false := by
      intro c hc
      rw [beq_eq_false_iff_ne]
      rintro rfl
      exact h text List.mem_cons_self hc
    have ih := splitOn_flatMap fun x hx => h x (List.mem_cons_of_mem text hx)
    rw [List.splitOn_eq_splitOnP] at ih ⊢
    rw [List.flatMap_cons, List.append_assoc, List.singleton_append,
      List.splitOnP_append_cons_of_forall_mem htext '\n' (by decide), ih]
    rfl

/-- Lines that are written one behind the other are found again. -/
theorem lines_flatMap {texts : List (List Char)} (h : ∀ text ∈ texts, '\n' ∉ text ∧ '\r' ∉ text) :
    lines (texts.flatMap fun text => text ++ ['\n']) = texts := by
  have hkept : (texts.map fun line => if line.getLast? = some '\r' then line.dropLast else line) =
      texts := by
    refine (List.map_congr_left fun line hline => if_neg fun hlast => ?_).trans (List.map_id texts)
    exact (h line hline).2 (List.mem_of_getLast? hlast)
  unfold lines
  rw [splitOn_flatMap fun text htext => (h text htext).1]
  simp only [List.dropLast_concat, List.getLast?_concat, hkept]

theorem isCommentLine_of_isUpper {c : Char} (hc : c.isUpper = true) (cs : List Char) :
    isCommentLine (c :: cs) = false := by
  have hne : ('/' == c) = false := by
    rw [beq_eq_false_iff_ne]
    exact (ne_slash_of_isUpper hc).symm
  rw [isCommentLine, List.isPrefixOf, hne, Bool.false_and]

end RegisterMachine.Assembly

namespace RegisterMachine.Structured

open RegisterMachine.Assembly RegisterMachine.Success

/-! ### The lines of code in a text -/

/-- A number ends with a digit. -/
theorem exists_last_digit (l : List Char) (n : Nat) :
    ∃ d, (l ++ Nat.toDigits 10 n).getLast? = some d ∧ d ≠ ':' := by
  have hne : Nat.toDigits 10 n ≠ [] := Nat.toDigits_ne_nil
  refine ⟨(Nat.toDigits 10 n).getLast hne, ?_, ?_⟩
  · rw [List.getLast?_append_of_ne_nil _ hne, List.getLast?_eq_some_getLast hne]
  · intro hcolon
    have hdigit := isDigit_of_mem_digits (List.getLast_mem hne)
    rw [hcolon] at hdigit
    exact absurd hdigit (by decide)

/-- The text of an instruction opens with a capital, and does not end with a colon. -/
theorem Line.text_instruction {line : Line} (h : line.isInstruction = true) :
    ∃ c cs d, line.text.toList = c :: cs ∧ c.isUpper = true ∧
      line.text.toList.getLast? = some d ∧ d ≠ ':' := by
  have hopcode : ∀ (op : Opcode) (argument : List Char) (n : Nat), ∃ c cs d,
      op.mnemonic.toList ++ ' ' :: (argument ++ Nat.toDigits 10 n) = c :: cs ∧ c.isUpper = true ∧
        (op.mnemonic.toList ++ ' ' :: (argument ++ Nat.toDigits 10 n)).getLast? = some d ∧
          d ≠ ':' := by
    intro op argument n
    obtain ⟨c, cs, htext, hc, -⟩ := mnemonic_spec op
    obtain ⟨d, hd, hcolon⟩ := exists_last_digit (op.mnemonic.toList ++ ' ' :: argument) n
    refine ⟨c, cs ++ ' ' :: (argument ++ Nat.toDigits 10 n), d, ?_, hc, ?_, hcolon⟩
    · rw [htext, List.cons_append]
    · rw [← hd, List.append_assoc, List.cons_append]
  cases line with
  | comment | label => exact absurd h (by simp [isInstruction])
  | operate op o =>
    have htext : ∃ sigil n, o.text.toList = sigil ++ Nat.toDigits 10 n := by
      rw [Operand.toList_text]
      cases o with
      | immediate value => exact ⟨['#'], value.toNat, rfl⟩
      | register index => exact ⟨[], index, rfl⟩
      | pointer index => exact ⟨['*'], index, rfl⟩
    obtain ⟨sigil, n, hoperand⟩ := htext
    have hline : (operate op o).text.toList =
        op.mnemonic.toList ++ ' ' :: (sigil ++ Nat.toDigits 10 n) := by
      rw [← hoperand]
      simp [Line.text]
    rw [hline]
    exact hopcode op sigil n
  | jump op m =>
    have hline : (jump op m).text.toList =
        op.mnemonic.toList ++ ' ' :: ((m.purpose.text.toList ++ ['_']) ++
          Nat.toDigits 10 m.number) := by
      simp [Line.text, Mark.toList_text]
    rw [hline]
    exact hopcode op _ m.number
  | halt => exact ⟨'E', ['N', 'D'], 'D', by decide, by decide, by decide, by decide⟩

theorem isCommentLine_comment (text : String) :
    isCommentLine (Line.comment text).text.toList = true := by
  simp [isCommentLine, Line.text]

theorem isLabelLine_label (m : Mark) :
    isCommentLine (Line.label m).text.toList = false ∧
      isLabelLine (Line.label m).text.toList = true := by
  obtain ⟨c, cs, htext, hc, -⟩ := m.text_spec
  have hline : (Line.label m).text.toList = c :: (cs ++ [':']) := by
    simp [Line.text, htext]
  rw [hline, isLabelLine, isCommentLine_of_isUpper hc]
  refine ⟨rfl, ?_⟩
  rw [← List.cons_append, List.getLast?_concat]
  rfl

theorem not_written_instruction {line : Line} (h : line.isInstruction = true) :
    isCommentLine line.text.toList = false ∧ isLabelLine line.text.toList = false := by
  obtain ⟨c, cs, d, htext, hc, hlast, hcolon⟩ := line.text_instruction h
  have hcomment : isCommentLine line.text.toList = false := by
    rw [htext]
    exact isCommentLine_of_isUpper hc cs
  refine ⟨hcomment, ?_⟩
  simp [isLabelLine, hcomment, hlast, hcolon]

theorem writtenInstructions_text : ∀ (code : Code),
    writtenInstructions (code.map fun line => line.text.toList) =
      code.instructions.map fun line => line.text.toList
  | [] => rfl
  | line :: code => by
    have ih := writtenInstructions_text code
    rw [writtenInstructions] at ih
    rw [List.map_cons, writtenInstructions, List.filter_cons, Code.instructions, List.filter_cons]
    cases hline : line.isInstruction with
    | true =>
      obtain ⟨hcomment, hlabel⟩ := not_written_instruction hline
      simp only [hcomment, hlabel, Bool.not_false, Bool.and_self, if_true, List.map_cons, ih]
      rfl
    | false =>
      cases line with
      | operate | jump | halt => cases hline
      | comment text =>
        simp only [isCommentLine_comment text, Bool.not_true, Bool.false_and, Bool.false_eq_true,
          if_false, ih]
        rfl
      | label m =>
        simp only [(isLabelLine_label m).2, Bool.not_true, Bool.and_false, Bool.false_eq_true,
          if_false, ih]
        rfl

theorem writtenLabels_text : ∀ (n : Nat) (code : Code),
    writtenLabels n (code.map fun line => line.text.toList) =
      (code.labelsFrom n).map fun entry => (entry.1.text.toList ++ [':'], entry.2)
  | _, [] => rfl
  | n, line :: code => by
    have hinstruction : line.isInstruction = true →
        writtenLabels n ((line :: code).map fun line => line.text.toList) =
          writtenLabels (n + 1) (code.map fun line => line.text.toList) := by
      intro hline
      obtain ⟨hcomment, hlabel⟩ := not_written_instruction hline
      simp only [List.map_cons, writtenLabels, hcomment, hlabel, Bool.false_eq_true, if_false]
    cases line with
    | comment text =>
      simp only [List.map_cons, writtenLabels, isCommentLine_comment text, if_true]
      exact writtenLabels_text n code
    | label m =>
      obtain ⟨hcomment, hlabel⟩ := isLabelLine_label m
      simp only [List.map_cons, writtenLabels, hcomment, hlabel, Bool.false_eq_true, if_false,
        if_true, Code.labelsFrom]
      rw [writtenLabels_text n code]
      simp [Line.text]
    | operate | jump | halt => exact (hinstruction rfl).trans (writtenLabels_text (n + 1) code)

/-- The text of a line is on one line. -/
theorem Line.Writable.clean {line : Line} (h : line.Writable) : Clean line.text := by
  have hname : ∀ text : String, (∀ c ∈ text.toList, isNameChar c = true) → Clean text := by
    intro text htext c hc
    have hchar := htext c hc
    constructor <;>
      · rintro rfl
        exact absurd hchar (by decide)
  have hmark : ∀ m : Mark, Clean m.text := by
    intro m
    obtain ⟨c, cs, htext, hc, hcs⟩ := m.text_spec
    refine hname _ fun x hx => ?_
    rw [htext] at hx
    rcases List.mem_cons.mp hx with rfl | hx
    · simp [isNameChar, hc]
    · exact hcs x hx
  have hopcode : ∀ op : Opcode, Clean op.mnemonic := by
    intro op
    cases op <;> simp [Clean, Opcode.mnemonic]
  have hblank : Clean " " ∧ Clean ":" ∧ Clean "// " := by simp [Clean]
  cases line with
  | comment text => exact clean_append.mpr ⟨hblank.2.2, h⟩
  | label m => exact clean_append.mpr ⟨hmark m, hblank.2.1⟩
  | operate op o =>
    refine clean_append.mpr ⟨clean_append.mpr ⟨hopcode op, hblank.1⟩, ?_⟩
    cases o with
    | immediate value =>
      have htext : (Operand.immediate value).text = "#" ++ toString value.toNat := by
        simp [Operand.text, toString]
      rw [htext, clean_append]
      exact ⟨by simp [Clean], clean_number _⟩
    | register index => exact clean_number index
    | pointer index =>
      have htext : (Operand.pointer index).text = "*" ++ toString index := by
        simp [Operand.text, toString]
      rw [htext, clean_append]
      exact ⟨by simp [Clean], clean_number _⟩
  | jump op m => exact clean_append.mpr ⟨clean_append.mpr ⟨hopcode op, hblank.1⟩, hmark m⟩
  | halt => exact hopcode .halt

/-- The lines of the text are the texts of the lines. -/
theorem lines_text {code : Code} (hne : code ≠ []) (hw : ∀ line ∈ code, line.Writable) :
    lines code.text.toList = code.map fun line => line.text.toList := by
  have hflat : code.text.toList =
      (code.map fun line => line.text.toList).flatMap fun text => text ++ ['\n'] := by
    rw [Code.toList_text code hne, List.flatMap_map]
  rw [hflat]
  refine lines_flatMap fun text htext => ?_
  obtain ⟨line, hline, rfl⟩ := List.mem_map.mp htext
  have hclean := (hw line hline).clean
  exact ⟨fun h => (hclean _ h).1 rfl, fun h => (hclean _ h).2 rfl⟩

/-! ### The instructions of a program -/

theorem Line.Spells.text {target : Mark → Option Label → Prop} {line : Line} {i : Instruction}
    (h : line.Spells target i) : i.text = line.text := by
  cases h <;> simp [Instruction.text, Line.text, Argument.text, toString]

def Line.opcode? : Line → Option Opcode
  | comment _ | label _ => none
  | operate op _ | jump op _ => some op
  | halt => some .halt

theorem opcodes_of_spells {target : Mark → Option Label → Prop} {code : Code}
    {is : List Instruction} (h : List.Forall₂ (Line.Spells target) code is) :
    is.map Instruction.opcode = code.filterMap Line.opcode? := by
  induction h with
  | nil => rfl
  | cons hspells _ ih =>
    rw [List.map_cons, ih]
    cases hspells <;> rfl

theorem texts_of_spells {target : Mark → Option Label → Prop} {code : Code}
    {is : List Instruction} (h : List.Forall₂ (Line.Spells target) code is) :
    is.map Instruction.text = code.map Line.text := by
  induction h with
  | nil => rfl
  | cons hspells _ ih => rw [List.map_cons, List.map_cons, ih, hspells.text]

theorem labels_of_stands {entries : List (Mark × Nat)} {ls : List Label}
    (h : List.Forall₂ Stands entries ls) :
    ls.map (fun l => (l.name, l.address)) = entries.map fun entry => (entry.1.text, entry.2) := by
  induction h with
  | nil => rfl
  | cons hstands _ ih => rw [List.map_cons, List.map_cons, ih, hstands.1, hstands.2]

/-- Labels with different numbers have different names. -/
theorem Assembled.nodup {code : Code} {p : Program} (h : Assembled code p)
    (hnodup : (code.marks.map Mark.number).Nodup) : (p.labels.toList.map Label.name).Nodup := by
  have hnames : p.labels.toList.map Label.name = code.marks.map Mark.text := by
    have hpairs := congrArg (List.map Prod.fst) (labels_of_stands h.labels)
    rw [List.map_map, List.map_map] at hpairs
    rw [← Code.map_labelsFrom 0, List.map_map]
    exact hpairs
  rw [hnames]
  refine List.Nodup.map_on (fun m hm m' hm' htext => ?_) (List.Nodup.of_map _ hnodup)
  exact eq_of_number hnodup hm hm' (Mark.number_eq_of_text htext)

end RegisterMachine.Structured

namespace RegisterMachine

open Structured Assembly Success

/-- **What compiling does.** -/
theorem compile_ok {source : String} {c : Compilation} (h : compile source = .ok c) :
    Drafted [] c.tree ∧ c.tree.emit = .ok c.emission := by
  obtain ⟨t, ht, h⟩ := bind_ok h
  obtain ⟨e, he, h⟩ := bind_ok h
  cases pure_ok h
  exact ⟨analyze_drafted (mapError_ok ht), mapError_ok he⟩

theorem compile_of_emit {source : String} {t : Tree} {e : Emission} (ht : analyze source = .ok t)
    (he : t.emit = .ok e) : compile source = .ok ⟨t, e⟩ := by
  have htree : (analyze source).mapError Failure.structured = .ok t := by
    rw [ht]
    rfl
  have hemission : t.emit.mapError Failure.ofRefusal = .ok e := by
    rw [he]
    rfl
  rw [compile, bind_run htree, bind_run hemission]
  rfl

/-- **Emitted code is sound**, and `END` is its last line and no other. -/
theorem emit_sound {t : Tree} {e : Emission} (ht : t.Clean) (h : t.emit = .ok e) :
    ∃ body : Code, e.code = body ++ [.halt] ∧
      (∀ line ∈ body, line.Valid body.marks e.registerCount) ∧
      e.code.Sound e.registerCount := by
  obtain ⟨body, R, n, hemits, hcode, -, hcount⟩ := emit_ok h
  have hplaced := hemits.placed Registers.sound_empty
  have hclean := hemits.comment_clean ht trivial
  have hvalid : ∀ line ∈ body, line.Valid body.marks e.registerCount := by
    intro line hline
    have hline' := hplaced.lines line hline
    have houter : ({} : Surroundings).marks = [] := rfl
    rwa [houter, List.append_nil, ← hcount] at hline'
  have hmarks : Code.marks (body ++ [.halt]) = body.marks := by
    rw [Code.marks, List.filterMap_append]
    exact List.append_nil _
  refine ⟨body, hcode, hvalid, ?_⟩
  rw [hcode]
  refine ⟨fun text htext => ?_, fun line hline => ?_, ?_, by simp⟩
  · exact hclean text (by simpa using htext)
  · rw [hmarks]
    rcases List.mem_append.mp hline with hline | hline
    · exact .inr (hvalid line hline)
    · exact .inl (List.mem_singleton.mp hline)
  · rw [hmarks]
    exact hplaced.nodup

/-- **What building does.** -/
theorem build_ok {source : String} {c : Compilation} {p : Program}
    (h : build source = .ok (c, p)) :
    compile source = .ok c ∧ assemble c.emission.assembly c.emission.registerCount = .ok p ∧
      Assembled c.emission.code p := by
  obtain ⟨c', hc, h⟩ := bind_ok h
  obtain ⟨p', hp, h⟩ := bind_ok h
  cases pure_ok h
  obtain ⟨hdrafted, hemit⟩ := compile_ok hc
  obtain ⟨body, hcode, hvalid, hsound⟩ := emit_sound hdrafted.clean hemit
  obtain ⟨p'', hp'', hassembled⟩ := exists_assembled hsound (Nat.le_refl _) (assemble_ok hp).1
  have heq : p = p'' := Except.ok.inj (hp.symm.trans hp'')
  exact ⟨hc, hp, heq ▸ hassembled⟩

theorem build_of_compile {source : String} {c : Compilation} (h : compile source = .ok c) :
    build source = (assemble c.emission.assembly c.emission.registerCount).map fun p => (c, p) := by
  rw [build, h]
  rfl

/-- **What is compiled is built**, if a machine can have its registers. -/
theorem exists_build {source : String} {c : Compilation} (h : compile source = .ok c)
    (hfits : c.emission.registerCount ≤ Machine.maxRegisters) :
    ∃ p, build source = .ok (c, p) := by
  obtain ⟨hdrafted, hemit⟩ := compile_ok h
  obtain ⟨-, -, -, hsound⟩ := emit_sound hdrafted.clean hemit
  obtain ⟨p, hp, -⟩ := exists_assembled hsound (Nat.le_refl _) hfits
  have hp' : assemble c.emission.assembly c.emission.registerCount = .ok p := hp
  rw [build_of_compile h, hp']
  exact ⟨p, rfl⟩

/-- **Emitted assembly is assembled to what it spells.** For every source that is compiled and every
number of registers that is large enough: the instructions have the texts of the lines that are no
comments and no labels, the labels are the label lines with the number of instruction lines before
each, no name is declared twice, and `END` is the last instruction and no other. -/
theorem compiled_assembles {source : String} {c : Compilation} (h : compile source = .ok c)
    {registers : Nat} (hcount : c.emission.registerCount ≤ registers)
    (hmax : registers ≤ Machine.maxRegisters) :
    ∃ p, assemble c.emission.assembly registers = .ok p ∧
      p.instructions.toList.map (fun i => i.text.toList) =
        writtenInstructions (lines c.emission.assembly.toList) ∧
      p.labels.toList.map (fun l => (l.name.toList ++ [':'], l.address)) =
        writtenLabels 0 (lines c.emission.assembly.toList) ∧
      (p.labels.toList.map Label.name).Nodup ∧
      ∃ others, p.instructions.toList.map Instruction.opcode = others ++ [.halt] ∧
        .halt ∉ others := by
  obtain ⟨hdrafted, hemit⟩ := compile_ok h
  obtain ⟨body, hcode, hvalid, hsound⟩ := emit_sound hdrafted.clean hemit
  obtain ⟨p, hp, hassembled⟩ := exists_assembled hsound hcount hmax
  have hlines : lines c.emission.assembly.toList =
      c.emission.code.map fun line => line.text.toList :=
    lines_text hsound.nonempty (hsound.writable (Nat.le_trans hcount hmax))
  refine ⟨p, hp, ?_, ?_, hassembled.nodup hsound.nodup, body.filterMap Line.opcode?, ?_, ?_⟩
  · have htexts := congrArg (List.map String.toList) (texts_of_spells hassembled.instructions)
    rw [List.map_map, List.map_map] at htexts
    rw [hlines, writtenInstructions_text]
    exact htexts
  · have hlabels := congrArg (List.map fun entry : String × Nat =>
      (entry.1.toList ++ [':'], entry.2)) (labels_of_stands hassembled.labels)
    rw [List.map_map, List.map_map] at hlabels
    rw [hlines, writtenLabels_text]
    exact hlabels
  · rw [opcodes_of_spells hassembled.instructions, hcode, Code.instructions, List.filter_append,
      List.filterMap_append, List.filterMap_filter]
    congr 1
    refine List.filterMap_congr fun line _ => ?_
    cases line <;> rfl
  · intro hmem
    obtain ⟨line, hline, hopcode⟩ := List.mem_filterMap.mp hmem
    have hline' := hvalid line hline
    cases line with
    | comment | label => cases hopcode
    | operate op o => exact hline'.1 (Option.some.inj hopcode)
    | jump op m => exact ne_halt_of_isJump hline'.1 (Option.some.inj hopcode)
    | halt => exact hline'

/-! ### A program that counts down -/

def countdown : String := "int a = 2; while (a > 1) a--;"

def countdownTokens : List Structured.Token :=
  [⟨.keyword .int, .none, ⟨1, 1, 3⟩, "int"⟩, ⟨.identifier, .name "a", ⟨1, 5, 1⟩, "a"⟩,
    ⟨.assign, .none, ⟨1, 7, 1⟩, "="⟩, ⟨.number, .number 2, ⟨1, 9, 1⟩, "2"⟩,
    ⟨.semicolon, .none, ⟨1, 10, 1⟩, ";"⟩, ⟨.keyword .while, .none, ⟨1, 12, 5⟩, "while"⟩,
    ⟨.leftParen, .none, ⟨1, 18, 1⟩, "("⟩, ⟨.identifier, .name "a", ⟨1, 19, 1⟩, "a"⟩,
    ⟨.binary .greaterThan, .none, ⟨1, 21, 1⟩, ">"⟩, ⟨.number, .number 1, ⟨1, 23, 1⟩, "1"⟩,
    ⟨.rightParen, .none, ⟨1, 24, 1⟩, ")"⟩, ⟨.identifier, .name "a", ⟨1, 26, 1⟩, "a"⟩,
    ⟨.incremental .subtract, .none, ⟨1, 27, 2⟩, "--"⟩, ⟨.semicolon, .none, ⟨1, 29, 1⟩, ";"⟩]

theorem tokenize_countdown : Structured.tokenize countdown = .ok countdownTokens :=
  ok_of_toOption (by decide +kernel)

def countdownTree : Tree :=
  let a (column : Nat) : Identifier := ⟨"a", some .int, some rootScope, ⟨1, column, 1⟩⟩
  ⟨#[⟨[], #[.assign (.name (a 5)) (.number 2 ⟨1, 9, 1⟩) true ⟨1, 1, 10⟩,
      .loop (.binary .greaterThan (.name (a 19)) (.number 1 ⟨1, 23, 1⟩) ⟨1, 19, 5⟩) 1 ⟨1, 12, 12⟩]⟩,
    ⟨[rootScope], #[.assign (.name (a 26))
      (.binary .subtract (.name (a 26)) (.number 1 ⟨1, 27, 2⟩) ⟨1, 26, 3⟩) false ⟨1, 26, 4⟩]⟩]⟩

theorem analyze_countdown : analyze countdown = .ok countdownTree := by
  rw [analyze, tokenize_countdown]
  cbv

theorem compile_countdown : ∃ c, compile countdown = .ok c ∧ c.tree = countdownTree ∧
    c.emission.registerCount = 1 := by
  have hcount : countdownTree.emit.toOption.map Emission.registerCount = some 1 := by
    decide +kernel
  obtain ⟨e, he, hcount⟩ := Option.map_eq_some_iff.mp hcount
  exact ⟨_, compile_of_emit analyze_countdown (ok_of_toOption he), rfl, hcount⟩

theorem countdown_assembles : ∃ c p, compile countdown = .ok c ∧
    c.emission.registerCount ≤ 1 ∧ 1 ≤ Machine.maxRegisters ∧
    assemble c.emission.assembly 1 = .ok p ∧
    p.instructions.toList.map (fun i => i.text.toList) =
      writtenInstructions (lines c.emission.assembly.toList) := by
  obtain ⟨c, hc, -, hcount⟩ := compile_countdown
  have hmax : 1 ≤ Machine.maxRegisters := by decide
  obtain ⟨p, hp, htexts, -⟩ := compiled_assembles hc (Nat.le_of_eq hcount) hmax
  exact ⟨c, p, hc, Nat.le_of_eq hcount, hmax, hp, htexts⟩

end RegisterMachine
