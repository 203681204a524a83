import RegisterMachine.Proofs.Success
import RegisterMachine.Toolchain

/-! # What the checks of the assembler establish

Reading, resolving and bounds checking leave a program whose instructions have arguments that their
opcodes take, whose registers lie in the bank, and whose label references lead to the first label of
their name. The last is said of the source: an opcode token opens one instruction, so a label stands
behind as many instructions as there are opcode tokens before it.

* `instructionsBefore`: the number of instructions before the first declaration of a name.
* `Instruction.Checked`: what the machine may rely on.
* `assemble_ok`: all of it for every source that is assembled. -/

namespace RegisterMachine.Assembly

open RegisterMachine.Success

/-- The token declares a label of this name. -/
def Token.declares (t : Token) (name : String) : Bool := t.kind == .label && t.name == name

/-- **The number of instructions before the first declaration of a name.** -/
def instructionsBefore (tokens : List Token) (name : String) : Nat :=
  (tokens.takeWhile fun t => !t.declares name).countP (·.kind == .opcode)

/-- The labels that tokens declare, behind so many instructions. -/
def labelsFrom : Nat → List Token → List Label
  | _, [] => []
  | n, t :: rest =>
    match t.kind with
    | .label => ⟨t.name, n, t.span⟩ :: labelsFrom n rest
    | .opcode => labelsFrom (n + 1) rest
    | _ => labelsFrom n rest

/-! ### Reading -/

/-- An instruction as it is read: `END` alone, or another opcode with an argument that it takes. -/
def Instruction.Shaped (i : Instruction) : Prop :=
  match i.argument with
  | none => i.opcode = .halt
  | some a => i.opcode ≠ .halt ∧ i.opcode.accepts a = true

theorem argument?_kind {t : Token} {a : Argument} (h : argument? t = some a) :
    t.kind ≠ .label ∧ t.kind ≠ .opcode := by
  unfold argument? at h
  split at h <;> simp_all

theorem readInstruction_ok {op : Opcode} {span : Span} {t : Token} {i : Instruction}
    (hop : op ≠ .halt) (h : readInstruction op span t = .ok i) :
    i.Shaped ∧ t.kind ≠ .label ∧ t.kind ≠ .opcode := by
  unfold readInstruction at h
  split at h
  · rename_i a ha
    split at h
    · rename_i hacc
      cases h
      exact ⟨⟨hop, hacc⟩, argument?_kind ha⟩
    · cases h
  · cases h

/-- What reading adds to a program already read. -/
structure Reads (program : Program) (tokens : List Token) (p : Program) : Prop where
  labels : p.labels.toList = program.labels.toList ++ labelsFrom program.instructions.size tokens
  size : p.instructions.size = program.instructions.size + tokens.countP (·.kind == .opcode)
  shaped : (∀ i ∈ program.instructions, i.Shaped) → ∀ i ∈ p.instructions, i.Shaped

theorem shaped_push {program : Program} {i : Instruction} (hi : i.Shaped)
    (h : ∀ j ∈ program.instructions, j.Shaped) :
    ∀ j ∈ (program.pushInstruction i).instructions, j.Shaped := by
  intro j hj
  rcases Array.mem_push.mp hj with hj | rfl
  · exact h j hj
  · exact hi

theorem parseFrom_ok (program : Program) (tokens : List Token) :
    ∀ {p : Program}, parseFrom program tokens = .ok p → Reads program tokens p := by
  fun_induction parseFrom program tokens with
  | case1 program =>
    intro p h
    cases h
    exact ⟨by simp [labelsFrom], by simp, id⟩
  | case2 program t rest hkind ih =>
    intro p h
    obtain ⟨hl, hs, hi⟩ := ih h
    refine ⟨?_, ?_, hi⟩
    · simpa [labelsFrom, hkind, Program.pushLabel] using hl
    · simpa [hkind, Program.pushLabel] using hs
  | case3 program t rest hkind hvalue ih =>
    intro p h
    obtain ⟨hl, hs, hi⟩ := ih h
    refine ⟨?_, ?_, fun hall => hi (shaped_push rfl hall)⟩
    · simpa [labelsFrom, hkind, Program.pushInstruction] using hl
    · simp [hkind, Program.pushInstruction] at hs ⊢
      omega
  | case4 => intro p h; cases h
  | case5 => intro p h; cases h
  | case6 program t hkind op hop hvalue a rest i hread ih =>
    intro p h
    obtain ⟨hshaped, ha, ha'⟩ := readInstruction_ok hop hread
    obtain ⟨hl, hs, hi⟩ := ih h
    refine ⟨?_, ?_, fun hall => hi (shaped_push hshaped hall)⟩
    · simpa [labelsFrom, hkind, ha, Program.pushInstruction] using hl
    · simp [hkind, ha', Program.pushInstruction] at hs ⊢
      omega
  | case7 => intro p h; cases h
  | case8 => intro p h; cases h

/-! ### The first label of a name -/

theorem find?_labelsFrom {name : String} :
    ∀ {tokens : List Token} {n : Nat} {l : Label},
      (labelsFrom n tokens).find? (·.name == name) = some l →
        l.address = n + instructionsBefore tokens name ∧ ∃ t ∈ tokens, t.declares name
  | [], n, l, h => by simp [labelsFrom] at h
  | t :: rest, n, l, h => by
    unfold labelsFrom at h
    split at h
    · rename_i hkind
      rw [List.find?_cons] at h
      split at h
      · rename_i hname
        have hdecl : t.declares name = true := by simpa [Token.declares, hkind] using hname
        cases h
        exact ⟨by simp [instructionsBefore, hdecl], t, List.mem_cons_self, hdecl⟩
      · rename_i hname
        have hdecl : t.declares name = false := by simpa [Token.declares, hkind] using hname
        obtain ⟨ha, u, hu, hd⟩ := find?_labelsFrom h
        refine ⟨?_, u, List.mem_cons_of_mem _ hu, hd⟩
        simpa [instructionsBefore, hdecl, hkind] using ha
    · rename_i hkind
      have hdecl : t.declares name = false := by simp [Token.declares, hkind]
      obtain ⟨ha, u, hu, hd⟩ := find?_labelsFrom h
      refine ⟨?_, u, List.mem_cons_of_mem _ hu, hd⟩
      simp only [instructionsBefore, List.takeWhile_cons, hdecl, Bool.not_false, if_true,
        List.countP_cons, hkind, beq_self_eq_true] at ha ⊢
      omega
    · rename_i hlabel hopcode
      have hdecl : t.declares name = false := by
        simp [Token.declares, show t.kind ≠ .label from hlabel]
      obtain ⟨ha, u, hu, hd⟩ := find?_labelsFrom h
      refine ⟨?_, u, List.mem_cons_of_mem _ hu, hd⟩
      simpa [instructionsBefore, hdecl, show t.kind ≠ .opcode from hopcode] using ha

theorem instructionsBefore_le (tokens : List Token) (name : String) :
    instructionsBefore tokens name ≤ tokens.countP (·.kind == .opcode) :=
  (List.takeWhile_sublist _).countP_le

/-! ### Resolving and checking -/

theorem resolve_ok {p q : Program} (h : p.resolve = .ok q) :
    q.labels = p.labels ∧ List.Forall₂ (fun i j => i.resolve p = .ok j)
      p.instructions.toList q.instructions.toList := by
  unfold Program.resolve at h
  obtain ⟨is, his, rfl⟩ := map_ok h
  rw [Array.mapM_eq_mapM_toList] at his
  obtain ⟨l, hl, rfl⟩ := map_ok his
  exact ⟨rfl, by simpa using mapM_ok hl⟩

theorem instruction_resolve_ok {p : Program} {i j : Instruction} (h : i.resolve p = .ok j) :
    j.opcode = i.opcode ∧
      ((j = i ∧ ∀ name target span, i.argument ≠ some (.reference name target span)) ∨
        ∃ name target label span, i.argument = some (.reference name target span) ∧
          p.label? name = some label ∧ j.argument = some (.reference name (some label) span)) := by
  unfold Instruction.resolve at h
  split at h
  · rename_i name target span ha
    split at h
    · rename_i label hl
      cases h
      exact ⟨rfl, .inr ⟨name, target, label, span, ha, hl, rfl⟩⟩
    · cases h
  · rename_i hno
    cases h
    exact ⟨rfl, .inl ⟨rfl, hno⟩⟩

theorem checkBounds_ok_iff {p : Program} {bank : Nat} : p.checkBounds bank = .ok () ↔
    ∀ i ∈ p.instructions, ∀ a, i.argument = some a → ∀ r, a.register? = some r → r < bank := by
  have hnone : p.checkBounds bank = .ok () ↔
      ∀ i ∈ p.instructions.toList, i.outOfBounds? bank = none := by
    rw [← List.findSome?_eq_none_iff, Program.checkBounds]
    split <;> simp_all
  rw [hnone]
  refine ⟨fun h i hi a ha r hr => ?_, fun h i hi => ?_⟩
  · simpa [Instruction.outOfBounds?, ha, hr] using h i (Array.mem_toList_iff.mpr hi)
  · unfold Instruction.outOfBounds?
    split
    · rfl
    · rename_i a ha
      split
      · rfl
      · rename_i r hr
        exact if_neg (Nat.not_le.mpr (h i (Array.mem_toList_iff.mp hi) a ha r hr))

/-- **An instruction that has passed the checks.** Its label leads where `target` says. -/
inductive Instruction.Checked (target : String → Nat) (bank : Nat) : Instruction → Prop
  | halt (span : Span) : Checked target bank ⟨.halt, none, span⟩
  | operand {op : Opcode} {o : Operand} (place span : Span) (hop : op ≠ .halt)
      (accepts : op.accepts (.operand o place) = true)
      (bound : ∀ r, o.register? = some r → r < bank) :
      Checked target bank ⟨op, some (.operand o place), span⟩
  | jump {op : Opcode} {name : String} {label : Label} (place span : Span)
      (isJump : op.isJump = true) (address : label.address = target name) :
      Checked target bank ⟨op, some (.reference name (some label) place), span⟩

/-- What assembling a row of tokens for a bank of this size establishes. -/
structure Program.Checked (tokens : List Token) (bank : Nat) (p : Program) : Prop where
  instructions : ∀ i ∈ p.instructions, i.Checked (instructionsBefore tokens) bank
  declared : ∀ i ∈ p.instructions, ∀ name target place,
    i.argument = some (.reference name target place) → ∃ t ∈ tokens, t.declares name
  size : p.instructions.size = tokens.countP (·.kind == .opcode)

theorem label?_parse {tokens : List Token} {p : Program} {name : String} {label : Label}
    (h : parse tokens = .ok p) (hl : p.label? name = some label) :
    label.address = instructionsBefore tokens name ∧ ∃ t ∈ tokens, t.declares name := by
  have hlabels := (parseFrom_ok {} tokens h).labels
  unfold Program.label? at hl
  rw [← Array.find?_toList, hlabels] at hl
  have hfind := find?_labelsFrom (n := 0) (by simpa using hl)
  simpa using hfind

theorem checked_of_stages {tokens : List Token} {bank : Nat} {p q : Program}
    (hp : parse tokens = .ok p) (hq : p.resolve = .ok q) (hb : q.checkBounds bank = .ok ()) :
    q.Checked tokens bank := by
  obtain ⟨-, hall⟩ := resolve_ok hq
  have hshaped := (parseFrom_ok {} tokens hp).shaped (by simp)
  have hsource : ∀ j ∈ q.instructions, ∃ i ∈ p.instructions, i.resolve p = .ok j := by
    intro j hj
    obtain ⟨i, hi, hij⟩ := exists_of_mem_right hall (Array.mem_toList_iff.mpr hj)
    exact ⟨i, by simpa using hi, hij⟩
  refine ⟨fun j hj => ?_, fun j hj name target place ha => ?_, ?_⟩
  · obtain ⟨i, hi, hij⟩ := hsource j hj
    have hs := hshaped i hi
    have hbound := checkBounds_ok_iff.mp hb j hj
    obtain ⟨hop, ⟨rfl, hno⟩ | ⟨name, target, label, place, ha, hl, ha'⟩⟩ :=
      instruction_resolve_ok hij
    · obtain ⟨op, argument, span⟩ := j
      cases argument with
      | none =>
        cases (show op = .halt from hs)
        exact .halt span
      | some a =>
        cases a with
        | operand o place => exact .operand place span hs.1 hs.2 fun r hr => hbound _ rfl r hr
        | reference name target place => exact absurd rfl (hno name target place)
    · obtain ⟨op, argument, span⟩ := j
      have haccepts : i.opcode ≠ .halt ∧
          i.opcode.accepts (.reference name target place) = true := by
        simpa [Instruction.Shaped, ha] using hs
      subst hop
      cases ha'
      exact .jump place span haccepts.2 (label?_parse hp hl).1
  · obtain ⟨i, hi, hij⟩ := hsource j hj
    obtain ⟨-, ⟨rfl, hno⟩ | ⟨name', target', label, place', -, hl, ha'⟩⟩ :=
      instruction_resolve_ok hij
    · exact absurd ha (hno name target place)
    · rw [ha'] at ha
      cases ha
      exact (label?_parse hp hl).2
  · have hlen := hall.length_eq
    have hsize := (parseFrom_ok {} tokens hp).size
    simp only [Array.length_toList] at hlen
    rw [← hlen, hsize]
    simp

/-- What assembling a source goes through. -/
theorem assemble_stages {source : String} {registers : Nat} {p : Program}
    (h : assemble source registers = .ok p) :
    registers ≤ Machine.maxRegisters ∧ ∃ tokens parsed, tokenize source = .ok tokens ∧
      parse tokens = .ok parsed ∧ parsed.resolve = .ok p ∧
      p.checkBounds (registers + 1) = .ok () := by
  unfold assemble at h
  obtain ⟨_, hcount, h⟩ := bind_ok h
  obtain ⟨tokens, htokens, h⟩ := bind_ok h
  obtain ⟨parsed, hparsed, h⟩ := bind_ok h
  obtain ⟨resolved, hresolved, h⟩ := bind_ok h
  obtain ⟨_, hbounds, h⟩ := bind_ok h
  cases pure_ok h
  refine ⟨?_, tokens, parsed, mapError_ok htokens, mapError_ok hparsed, mapError_ok hresolved,
    mapError_ok hbounds⟩
  have hcheck := mapError_ok hcount
  unfold Machine.checkCount at hcheck
  split at hcheck
  · cases hcheck
  · omega

/-- **What every assembled program fulfils.** -/
theorem assemble_ok {source : String} {registers : Nat} {p : Program}
    (h : assemble source registers = .ok p) :
    registers ≤ Machine.maxRegisters ∧
      ∃ tokens, tokenize source = .ok tokens ∧ p.Checked tokens (registers + 1) := by
  obtain ⟨hmax, tokens, parsed, htokens, hparsed, hresolved, hbounds⟩ := assemble_stages h
  exact ⟨hmax, tokens, htokens, checked_of_stages hparsed hresolved hbounds⟩

theorem assemble_of_stages {source : String} {registers : Nat} {tokens : List Token} {p q : Program}
    (hmax : registers ≤ Machine.maxRegisters) (htokens : tokenize source = .ok tokens)
    (hp : parse tokens = .ok p) (hq : p.resolve = .ok q)
    (hb : q.checkBounds (registers + 1) = .ok ()) : assemble source registers = .ok q := by
  have hcount : Machine.checkCount registers = .ok () := by
    rw [Machine.checkCount, if_neg (Nat.not_lt.mpr hmax)]
  simp only [assemble, hcount, htokens, hp, hq, hb, Except.mapError, bind, Except.bind, pure,
    Except.pure]

end RegisterMachine.Assembly
