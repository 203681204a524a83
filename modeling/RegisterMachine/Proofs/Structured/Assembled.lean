import RegisterMachine.Proofs.Assembly.Entries
import RegisterMachine.Proofs.Structured.Lines
import RegisterMachine.Proofs.Structured.Spelling

/-! # Emitted code, assembled

Code whose jumps lead to its labels and whose labels have different numbers is assembled to the
instructions that its lines spell. The labels are those of the code, each at the number of
instructions before it, and a jump has the label of its mark.

* `Code.instructions`, `Code.labelsFrom`: the instructions and the labels of code.
* `Line.Spells`: the instruction of a line.
* `Assembled`: a program is that of some code.
* `exists_assembled`: there is one. -/

namespace RegisterMachine.Structured

open RegisterMachine.Assembly RegisterMachine.Success

/-- The line is an instruction. -/
def Line.isInstruction : Line → Bool
  | comment _ | label _ => false
  | operate _ _ | jump _ _ | halt => true

/-- The lines of code that are instructions. -/
def Code.instructions (code : Code) : Code := code.filter Line.isInstruction

/-- **The labels of code** behind so many instructions, each with the number of instructions before
it. -/
def Code.labelsFrom : Nat → Code → List (Mark × Nat)
  | _, [] => []
  | n, .comment _ :: rest => labelsFrom n rest
  | n, .label m :: rest => (m, n) :: labelsFrom n rest
  | n, .operate _ _ :: rest | n, .jump _ _ :: rest | n, .halt :: rest => labelsFrom (n + 1) rest

/-- **The instruction that a line spells.** What a reference has for a target, `target` says. -/
inductive Line.Spells (target : Mark → Option Label → Prop) : Line → Instruction → Prop
  | operate (op : Opcode) (o : Operand) (place span : Span) :
    Spells target (.operate op o) ⟨op, some (.operand o place), span⟩
  | jump (op : Opcode) {m : Mark} {l : Option Label} (place span : Span) (leads : target m l) :
    Spells target (.jump op m) ⟨op, some (.reference m.text l place), span⟩
  | halt (span : Span) : Spells target .halt ⟨.halt, none, span⟩

/-- The label in a program for a label of code. -/
def Stands (entry : Mark × Nat) (l : Label) : Prop := l.name = entry.1.text ∧ l.address = entry.2

/-- **A program is that of some code.** -/
structure Assembled (code : Code) (p : Program) : Prop where
  instructions : List.Forall₂
    (Line.Spells fun m target => ∃ l, target = some l ∧ (m, l.address) ∈ code.labelsFrom 0)
    code.instructions p.instructions.toList
  labels : List.Forall₂ Stands (code.labelsFrom 0) p.labels.toList

theorem Code.map_labelsFrom : ∀ (n : Nat) (code : Code),
    (code.labelsFrom n).map Prod.fst = code.marks
  | _, [] => rfl
  | n, .comment _ :: rest => map_labelsFrom n rest
  | n, .label m :: rest => congrArg (m :: ·) (map_labelsFrom n rest)
  | n, .operate _ _ :: rest | n, .jump _ _ :: rest | n, .halt :: rest => map_labelsFrom (n + 1) rest

theorem Code.instructions_append (code code' : Code) :
    Code.instructions (code ++ code') = code.instructions ++ code'.instructions :=
  List.filter_append _ _

theorem Code.instructions_cons {line : Line} {code : Code} (h : line.isInstruction = true) :
    Code.instructions (line :: code) = line :: code.instructions := List.filter_cons_of_pos h

theorem Code.instructions_skip {line : Line} {code : Code} (h : line.isInstruction = false) :
    Code.instructions (line :: code) = code.instructions :=
  List.filter_cons_of_neg (by simp [h])

/-- **Where a label stands**: the instructions before it are those of the lines before it. -/
theorem Code.split_of_mem_labelsFrom {m : Mark} {address : Nat} : ∀ {n : Nat} {code : Code},
    (m, address) ∈ code.labelsFrom n →
      ∃ before rest, code = before ++ .label m :: rest ∧
        address = n + (Code.instructions before).length
  | _, [], h => nomatch h
  | n, line :: code, h => by
    have hnext : ∀ {k}, (m, address) ∈ Code.labelsFrom k code →
        k + (Code.instructions []).length = n + (Code.instructions [line]).length →
        ∃ before rest, line :: code = before ++ .label m :: rest ∧
          address = n + (Code.instructions before).length := by
      intro k hk hlength
      obtain ⟨before, rest, hcode, haddress⟩ := split_of_mem_labelsFrom hk
      refine ⟨line :: before, rest, by rw [hcode, List.cons_append], ?_⟩
      have happend : Code.instructions (line :: before) =
          Code.instructions [line] ++ before.instructions := Code.instructions_append [line] before
      rw [haddress, happend, List.length_append, ← Nat.add_assoc, ← hlength]
      rfl
    cases line with
    | comment text => exact hnext h rfl
    | label m' =>
      rcases List.mem_cons.mp h with h | h
      · cases h
        exact ⟨[], code, rfl, rfl⟩
      · exact hnext h rfl
    | operate | jump | halt => exact hnext h rfl

/-! ### Reading -/

/-- What reading the tokens of code adds to a program already read. -/
structure Adds (program : Program) (code : Code) (p : Program) : Prop where
  instructions : ∃ is, p.instructions.toList = program.instructions.toList ++ is ∧
    List.Forall₂ (Line.Spells fun _ target => target = none) code.instructions is
  labels : ∃ ls, p.labels.toList = program.labels.toList ++ ls ∧
    List.Forall₂ Stands (code.labelsFrom program.instructions.size) ls

theorem Adds.instruction {program p : Program} {line : Line} {code : Code} {i : Instruction}
    (hline : line.isInstruction = true) (hi : line.Spells (fun _ target => target = none) i)
    (h : Adds (program.pushInstruction i) code p) : Adds program (line :: code) p := by
  obtain ⟨⟨is, his, hspells⟩, ⟨ls, hls, hstands⟩⟩ := h
  refine ⟨⟨i :: is, by simpa [Program.pushInstruction] using his, ?_⟩,
    ⟨ls, by simpa [Program.pushInstruction] using hls, ?_⟩⟩
  · rw [Code.instructions_cons hline]
    exact .cons hi hspells
  · have hsize : (program.pushInstruction i).instructions.size = program.instructions.size + 1 := by
      simp [Program.pushInstruction]
    rw [hsize] at hstands
    cases line with
    | comment | label => exact absurd hline (by simp [Line.isInstruction])
    | operate | jump | halt => exact hstands

theorem adds_of_lexemes {code : Code} {ts : List Assembly.Token} (h : Lexemes code ts) :
    (∀ line ∈ code, line.Writable) →
      ∀ program, ∃ p, parseFrom program ts = .ok p ∧ Adds program code p := by
  induction h with
  | nil =>
    intro _ program
    exact ⟨program, rfl, ⟨[], by simp, .nil⟩, ⟨[], by simp, .nil⟩⟩
  | comment text rest ih =>
    intro hw program
    obtain ⟨p, hp, hadds⟩ := ih (fun l hl => hw l (List.mem_cons_of_mem _ hl)) program
    exact ⟨p, hp, hadds.instructions, hadds.labels⟩
  | @label code ts m t kind value rest ih =>
    intro hw program
    obtain ⟨p, hp, hinstructions, ⟨ls, hls, hstands⟩⟩ :=
      ih (fun l hl => hw l (List.mem_cons_of_mem _ hl)) (program.pushLabel t.name t.span)
    have hname : t.name = m.text := by rw [Token.name, value]
    refine ⟨p, (parseFrom_label _ _ kind).trans hp, hinstructions,
      ⟨⟨t.name, program.instructions.size, t.span⟩ :: ls, ?_, .cons ?_ hstands⟩⟩
    · simpa [Program.pushLabel] using hls
    · exact ⟨hname, rfl⟩
  | @operate code ts op o t a kind value argument rest ih =>
    intro hw program
    obtain ⟨hop, haccepts, -⟩ := hw _ List.mem_cons_self
    obtain ⟨p, hp, hadds⟩ := ih (fun l hl => hw l (List.mem_cons_of_mem _ hl))
      (program.pushInstruction ⟨op, some (.operand o a.span), t.span⟩)
    rw [← accepts_operand op o a.span] at haccepts
    exact ⟨p, (parseFrom_opcode _ _ kind value hop argument haccepts).trans hp,
      hadds.instruction rfl (.operate op o a.span t.span)⟩
  | @jump code ts op m t a kind value argument rest ih =>
    intro hw program
    have hjump : op.isJump = true := hw _ List.mem_cons_self
    obtain ⟨p, hp, hadds⟩ := ih (fun l hl => hw l (List.mem_cons_of_mem _ hl))
      (program.pushInstruction ⟨op, some (.reference m.text none a.span), t.span⟩)
    exact ⟨p, (parseFrom_opcode _ _ kind value (ne_halt_of_isJump hjump) argument hjump).trans hp,
      hadds.instruction rfl (.jump op a.span t.span rfl)⟩
  | @halt code ts t kind value rest ih =>
    intro hw program
    obtain ⟨p, hp, hadds⟩ := ih (fun l hl => hw l (List.mem_cons_of_mem _ hl))
      (program.pushInstruction ⟨.halt, none, t.span⟩)
    exact ⟨p, (parseFrom_halt _ _ kind value).trans hp, hadds.instruction rfl (.halt t.span)⟩

/-! ### Resolving -/

section Resolve

variable {code : Code} {p : Program}

/-- Marks with one number are one mark, if no number comes twice. -/
theorem eq_of_number {marks : List Mark} (hnodup : (marks.map Mark.number).Nodup) {m m' : Mark}
    (hm : m ∈ marks) (hm' : m' ∈ marks) (h : m.number = m'.number) : m = m' :=
  List.inj_on_of_nodup_map hnodup hm hm' h

/-- A label that is placed is found, at its own address. -/
theorem exists_label {m : Mark} (hnodup : (code.marks.map Mark.number).Nodup)
    (hlabels : List.Forall₂ Stands (code.labelsFrom 0) p.labels.toList) (hm : m ∈ code.marks) :
    ∃ l, p.label? m.text = some l ∧ (m, l.address) ∈ code.labelsFrom 0 := by
  rw [← Code.map_labelsFrom 0, List.mem_map] at hm
  obtain ⟨⟨m, address⟩, hentry, rfl⟩ := hm
  obtain ⟨l, hl, hname, -⟩ := exists_of_mem_left hlabels hentry
  have hfound : (p.label? m.text).isSome = true := by
    rw [Program.label?, ← Array.find?_toList, List.find?_isSome]
    exact ⟨l, hl, by simpa using hname⟩
  obtain ⟨l', hl'⟩ := Option.isSome_iff_exists.mp hfound
  have hl'' := hl'
  rw [Program.label?, ← Array.find?_toList] at hl''
  obtain ⟨⟨m', address'⟩, hentry', hname', haddress⟩ :=
    exists_of_mem_right hlabels (List.mem_of_find?_eq_some hl'')
  have htext : l'.name = m.text := by simpa using List.find?_some hl''
  have hmarks : ∀ e ∈ code.labelsFrom 0, e.1 ∈ code.marks := fun e he => by
    rw [← Code.map_labelsFrom 0]
    exact List.mem_map_of_mem he
  have heq : m = m' := eq_of_number hnodup (hmarks _ hentry) (hmarks _ hentry')
    (Mark.number_eq_of_text (htext.symm.trans hname'))
  subst heq
  refine ⟨l', hl', ?_⟩
  rw [haddress]
  exact hentry'

theorem spells_resolve {line : Line} {i : Instruction}
    (hnodup : (code.marks.map Mark.number).Nodup)
    (hlabels : List.Forall₂ Stands (code.labelsFrom 0) p.labels.toList)
    (hline : ∀ op m, line = .jump op m → m ∈ code.marks)
    (h : line.Spells (fun _ target => target = none) i) :
    ∃ j, i.resolve p = .ok j ∧ line.Spells
      (fun m target => ∃ l, target = some l ∧ (m, l.address) ∈ code.labelsFrom 0) j := by
  cases h with
  | operate op o place span => exact ⟨_, rfl, .operate op o place span⟩
  | halt span => exact ⟨_, rfl, .halt span⟩
  | @jump op m _ place span leads =>
    obtain ⟨l, hl, hmem⟩ := exists_label hnodup hlabels (hline op m rfl)
    refine ⟨⟨op, some (.reference m.text (some l) place), span⟩, ?_,
      .jump op place span ⟨l, rfl, hmem⟩⟩
    simp [Instruction.resolve, hl]

/-- Each instruction is that of a line. -/
theorem Assembled.exists_line (h : Assembled code p) {i : Instruction} (hi : i ∈ p.instructions) :
    ∃ line ∈ code, line.isInstruction = true ∧ line.Spells
      (fun m target => ∃ l, target = some l ∧ (m, l.address) ∈ code.labelsFrom 0) i := by
  obtain ⟨line, hline, hspells⟩ :=
    exists_of_mem_right h.instructions (Array.mem_toList_iff.mpr hi)
  obtain ⟨hline, hinstruction⟩ := List.mem_filter.mp hline
  exact ⟨line, hline, hinstruction, hspells⟩

end Resolve

/-- Code that can be assembled for a machine with so many general registers. -/
structure Code.Sound (highest : Nat) (code : Code) : Prop where
  clean : ∀ text, Line.comment text ∈ code → Clean text
  lines : ∀ line ∈ code, line = .halt ∨ line.Valid code.marks highest
  nodup : (code.marks.map Mark.number).Nodup
  nonempty : code ≠ []

theorem Code.Sound.writable {highest : Nat} {code : Code} (h : code.Sound highest)
    (hmax : highest ≤ Machine.maxRegisters) : ∀ line ∈ code, line.Writable := by
  intro line hline
  rcases h.lines line hline with rfl | hvalid
  · trivial
  · cases line with
    | comment text => exact h.clean text hline
    | label | halt => trivial
    | operate op o =>
      refine ⟨hvalid.1, hvalid.2.1, fun r hr => ?_⟩
      have hle := hvalid.2.2 r hr
      have hword : Machine.maxRegisters < Decimal.wordCount := by decide
      omega
    | jump op m => exact hvalid.1

/-- **Sound code is assembled**, for any number of registers that is large enough. -/
theorem exists_assembled {highest registers : Nat} {code : Code} (h : code.Sound highest)
    (hle : highest ≤ registers) (hmax : registers ≤ Machine.maxRegisters) :
    ∃ p, assemble code.text registers = .ok p ∧ Assembled code p := by
  have hw := h.writable (Nat.le_trans hle hmax)
  obtain ⟨ts, htokens, hlexemes⟩ := tokenize_text h.nonempty hw
  obtain ⟨p, hparse, ⟨is, his, hspells⟩, ⟨ls, hls, hstands⟩⟩ := adds_of_lexemes hlexemes hw {}
  simp only [List.nil_append, Array.size_empty] at his hls hstands
  subst his hls
  have hmarked : ∀ line ∈ code.instructions, ∀ op m, line = .jump op m → m ∈ code.marks := by
    rintro line hline op m rfl
    rcases h.lines _ (List.mem_filter.mp hline).1 with hhalt | hvalid
    · cases hhalt
    · exact hvalid.2
  have hstep : List.Forall₂ (fun line i => ∃ j, i.resolve p = .ok j ∧ line.Spells
      (fun m target => ∃ l, target = some l ∧ (m, l.address) ∈ code.labelsFrom 0) j)
      code.instructions p.instructions.toList :=
    forall₂_imp_of_mem hspells fun line i hline hi =>
      spells_resolve h.nodup hstands (hmarked line hline) hi
  obtain ⟨js, hjs, hspells'⟩ := mapM_of_forall₂ hstep
  have hresolve : p.resolve = .ok { p with instructions := js.toArray } := by
    rw [Program.resolve, Array.mapM_eq_mapM_toList, hjs]
    rfl
  have hassembled : Assembled code { p with instructions := js.toArray } :=
    ⟨by simpa using hspells', hstands⟩
  have hbounds : Program.checkBounds { p with instructions := js.toArray } (registers + 1) =
      .ok () := by
    refine checkBounds_ok_iff.mpr fun i hi a ha r hr => ?_
    obtain ⟨line, hline, -, hspell⟩ := hassembled.exists_line hi
    cases hspell with
    | halt => cases ha
    | jump =>
      cases ha
      cases hr
    | operate op o place span =>
      cases ha
      rcases h.lines _ hline with hhalt | hvalid
      · cases hhalt
      · exact Nat.lt_succ_of_le (Nat.le_trans (hvalid.2.2 r hr) hle)
  exact ⟨_, assemble_of_stages hmax htokens hparse hresolve hbounds, hassembled⟩

end RegisterMachine.Structured
