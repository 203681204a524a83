import RegisterMachine.Proofs.Machine.Run
import RegisterMachine.Proofs.Machine.StaticChecks
import RegisterMachine.Proofs.Structured.Assembled
import RegisterMachine.Proofs.Structured.Running

/-! # Code in the memory of a machine

Code appears in a memory at an address if its instructions stand there in order and its jumps lead
to the addresses of its own labels. What else is in the memory does not count: a machine whose
counter comes to the code does what the code does, and leaves it at its end only.

* `Code.AppearsAt`: the code appears; `AppearsAt.part` for a part of it.
* `Within`: the machine is at a point of the code, with `Within.write`, `Within.pass` and
  `Within.jump` for one step.
* `Runs.executes_within`: runs of the code are runs of the machine, and stay within the code. -/

namespace RegisterMachine.Structured

open RegisterMachine.Assembly RegisterMachine.Machine RegisterMachine.Success

/-- **The code appears in a memory** at this address, with its labels resolved. -/
def Code.AppearsAt (code : Code) (memory : Array Instruction) (start : Nat) : Prop :=
  List.Forall₂
    (Line.Spells fun m target => ∃ l, target = some l ∧ (m, l.address) ∈ code.labelsFrom start)
    code.instructions ((memory.toList.drop start).take code.instructions.length)

/-- The code of a program appears at the start. -/
theorem Assembled.appearsAt {whole : Code} {p : Program} (h : Assembled whole p) :
    whole.AppearsAt p.instructions 0 := by
  rw [Code.AppearsAt, List.drop_zero, h.instructions.length_eq, List.take_length]
  exact h.instructions

/-! ### Parts of code -/

/-- The labels of code and of the code behind it. -/
theorem Code.labelsFrom_append : ∀ (n : Nat) (code code' : Code),
    Code.labelsFrom n (code ++ code') =
      code.labelsFrom n ++ code'.labelsFrom (n + code.instructions.length)
  | _, [], _ => rfl
  | n, .comment _ :: rest, code' => labelsFrom_append n rest code'
  | n, .label m :: rest, code' => congrArg ((m, n) :: ·) (labelsFrom_append n rest code')
  | n, .operate _ _ :: rest, code' | n, .jump _ _ :: rest, code' | n, .halt :: rest, code' => by
    have hlength : ∀ line : Line, line.isInstruction = true →
        n + (Code.instructions (line :: rest)).length =
          n + 1 + (Code.instructions rest).length := by
      intro line hline
      rw [Code.instructions_cons hline, List.length_cons, Nat.add_right_comm]
      rfl
    rw [hlength _ rfl]
    exact labelsFrom_append (n + 1) rest code'

/-- A label of a part is where the part has it, if no label stands twice. -/
theorem Code.mem_labelsFrom_part {before code rest : Code} {m : Mark} {n address : Nat}
    (hnodup : (Code.marks (before ++ code ++ rest)).Nodup) (hm : m ∈ code.marks)
    (h : (m, address) ∈ Code.labelsFrom n (before ++ code ++ rest)) :
    (m, address) ∈ code.labelsFrom (n + before.instructions.length) := by
  have hmarks : Code.marks (before ++ code ++ rest) =
      before.marks ++ code.marks ++ rest.marks := by
    simp only [Code.marks, List.filterMap_append]
  rw [hmarks, List.nodup_append] at hnodup
  obtain ⟨hfront, -, hbehind⟩ := hnodup
  have hmark : ∀ {k} {code : Code}, (m, address) ∈ code.labelsFrom k → m ∈ code.marks := by
    intro k code h
    rw [← Code.map_labelsFrom k]
    exact List.mem_map_of_mem h
  rw [Code.labelsFrom_append, Code.labelsFrom_append, List.mem_append, List.mem_append] at h
  rcases h with (h | h) | h
  · exact ((List.nodup_append.mp hfront).2.2 m (hmark h) m hm rfl).elim
  · exact h
  · exact (hbehind m (List.mem_append_right _ hm) m (hmark h) rfl).elim

/-- **A part of the code appears** behind the instructions before it, if its jumps lead to labels of
its own. -/
theorem Code.AppearsAt.part {before code rest : Code} {memory : Array Instruction} {start : Nat}
    (h : Code.AppearsAt (before ++ code ++ rest) memory start)
    (hnodup : (Code.marks (before ++ code ++ rest)).Nodup)
    (closed : ∀ op m, .jump op m ∈ code → m ∈ code.marks) :
    code.AppearsAt memory (start + before.instructions.length) := by
  have hlist : (((memory.toList.drop start).take
        (Code.instructions (before ++ code ++ rest)).length).drop
          before.instructions.length).take code.instructions.length =
      (memory.toList.drop (start + before.instructions.length)).take code.instructions.length := by
    rw [List.drop_take, List.drop_drop, List.take_take, Code.instructions_append,
      Code.instructions_append, List.length_append, List.length_append]
    congr 1
    omega
  have hline := List.forall₂_take code.instructions.length
    (List.forall₂_drop before.instructions.length h)
  rw [hlist, Code.instructions_append, Code.instructions_append,
    List.append_assoc before.instructions, List.drop_left, List.take_left] at hline
  refine forall₂_imp_of_mem hline fun line i hmem hspells => ?_
  cases hspells with
  | operate op o place span => exact .operate op o place span
  | @jump op m l place span leads =>
    obtain ⟨label, hl, hlabel⟩ := leads
    have hm : m ∈ code.marks := closed op m (List.mem_filter.mp hmem).1
    exact .jump op place span ⟨label, hl, Code.mem_labelsFrom_part hnodup hm hlabel⟩
  | halt span => exact .halt span

section Within

variable {whole code : Code} {memory : Array Instruction} {start : Nat} {m : Interpreter}
  {bank : Bank} {s e : Point} {line : Line}

/-- **The instruction of a line** stands behind those of the lines before it. -/
theorem Code.AppearsAt.exists_instruction (h : whole.AppearsAt memory start) {before : Code}
    (hwhole : whole = before ++ line :: code) (hline : line.isInstruction = true) :
    before.instructions.length < whole.instructions.length ∧
      ∃ i, memory[start + before.instructions.length]? = some i ∧ line.Spells
        (fun m target => ∃ l, target = some l ∧ (m, l.address) ∈ whole.labelsFrom start) i := by
  have hsplit : whole.instructions = before.instructions ++ line :: code.instructions := by
    rw [hwhole, Code.instructions_append, Code.instructions_cons hline]
  have hplace : whole.instructions[before.instructions.length]? = some line := by
    rw [hsplit, List.getElem?_append_right (Nat.le_refl _), Nat.sub_self]
    rfl
  obtain ⟨i, hi, hspells⟩ := exists_of_getElem?_left h hplace
  have hlength := (List.getElem?_eq_some_iff.mp hplace).1
  rw [List.getElem?_take_of_lt hlength, List.getElem?_drop, Array.getElem?_toList] at hi
  exact ⟨hlength, i, hi, hspells⟩

/-! ### Points of the code -/

/-- **The machine is at a point of code** that appears in its memory, and runs. -/
structure Within (whole : Code) (memory : Array Instruction) (start : Nat) (s : Point)
    (m : Interpreter) : Prop where
  memory : m.memory = memory
  running : m.state ≠ .stopped
  bank : m.bank = s.bank
  counter : ∃ before, whole = before ++ s.code ∧ m.counter = start + before.instructions.length

/-- The counter is that of an instruction of the code. -/
def Inside (whole : Code) (start : Nat) (m : Interpreter) : Prop :=
  start ≤ m.counter ∧ m.counter < start + whole.instructions.length

/-- The instruction that comes next is that of the line. -/
theorem Within.current (h : Within whole memory start ⟨line :: code, bank⟩ m)
    (happears : whole.AppearsAt memory start) (hline : line.isInstruction = true) :
    Inside whole start m ∧ ∃ i, m.current? = some i ∧ line.Spells
      (fun m target => ∃ l, target = some l ∧ (m, l.address) ∈ whole.labelsFrom start) i := by
  obtain ⟨before, hwhole, hcounter⟩ := h.counter
  obtain ⟨hlength, i, hi, hspells⟩ := happears.exists_instruction hwhole hline
  refine ⟨⟨by omega, by omega⟩, i, ?_, hspells⟩
  rw [Interpreter.current?, h.memory, hcounter]
  exact hi

/-- Lines that are no instructions are passed over. -/
theorem Within.skip (h : Within whole memory start ⟨line :: code, bank⟩ m)
    (hline : line.isInstruction = false) : Within whole memory start ⟨code, bank⟩ m := by
  obtain ⟨before, hwhole, hcounter⟩ := h.counter
  refine ⟨h.memory, h.running, h.bank, before ++ [line], by simp [hwhole], ?_⟩
  rw [hcounter, Code.instructions_append, Code.instructions_skip hline]
  simp [Code.instructions]

/-- The counter behind an instruction. -/
theorem Within.behind {bank' : Bank} {m' : Interpreter}
    (h : Within whole memory start ⟨line :: code, bank⟩ m) (hline : line.isInstruction = true)
    (memory_eq : m'.memory = m.memory) (running : m'.state ≠ .stopped) (hbank : m'.bank = bank')
    (counter : m'.counter = m.counter + 1) : Within whole memory start ⟨code, bank'⟩ m' := by
  obtain ⟨before, hwhole, hcounter⟩ := h.counter
  refine ⟨memory_eq.trans h.memory, running, hbank, before ++ [line], by simp [hwhole], ?_⟩
  rw [counter, hcounter, Code.instructions_append, List.length_append,
    Code.instructions_cons hline]
  rfl

/-- The end of the code is behind its instructions. -/
theorem Within.counter_end (h : Within whole memory start ⟨[], bank⟩ m) :
    m.counter = start + whole.instructions.length := by
  obtain ⟨before, hwhole, hcounter⟩ := h.counter
  rw [hwhole, List.append_nil]
  exact hcounter

/-! ### Steps -/

/-- **A line with an operand has its effect at any address**, unless it is a fault. -/
theorem effect_of_operate {bank : Bank} {op : Opcode} {o : Operand} {e : Effect}
    (h : operate bank op o = e) (he : (∃ r v, e = .write r v) ∨ e = .halt .divisionByZero)
    (address : Nat) (place span : Span) :
    effect bank address ⟨op, some (.operand o place), span⟩ = e := by
  have hjump : op.isJump = true → False := by
    intro hop
    have heffect : operate bank op o = if jumps op bank.accumulator then
        .halt (.fault (.missingArgument 0)) else .next := by
      cases op <;> first | rfl | cases hop
    rw [heffect] at h
    split at h <;> subst h <;> simp at he
  cases op with
  | load | add | sub | mul | div => exact h
  | store =>
    cases o with
    | immediate value =>
      subst h
      simp [operate, effect, storeEffect, operandTarget] at he
    | register | pointer => exact h
  | halt =>
    subst h
    simp [operate, effect] at he
  | goto | jzero | jnzero => exact (hjump rfl).elim

/-- **There is one place for a label.** -/
theorem eq_of_label {before before' rest rest' : Code} {mark : Mark} (hnodup : whole.marks.Nodup)
    (h : whole = before ++ .label mark :: rest) (h' : whole = before' ++ .label mark :: rest') :
    before = before' ∧ rest = rest' := by
  have hmarks : whole.marks = Code.marks before ++ mark :: Code.marks rest := by
    rw [h, Code.marks, List.filterMap_append]
    rfl
  rw [hmarks, List.nodup_append] at hnodup
  obtain ⟨-, hrest, hapart⟩ := hnodup
  have hmem : ∀ {code : Code}, .label mark ∈ code → mark ∈ code.marks := fun hl =>
    List.mem_filterMap.mpr ⟨_, hl, rfl⟩
  have hbefore : .label mark ∉ before := fun hl =>
    hapart mark (hmem hl) mark List.mem_cons_self rfl
  have hbehind : .label mark ∉ rest := fun hl => (List.nodup_cons.mp hrest).1 (hmem hl)
  obtain ⟨h₁, -, h₂⟩ := (List.append_cons_inj_of_notMem hbefore hbehind).mp (h.symm.trans h')
  exact ⟨h₁, h₂⟩

theorem Within.write {op : Opcode} {o : Operand} {r : Nat} {v : UInt32}
    (h : Within whole memory start ⟨.operate op o :: code, bank⟩ m)
    (happears : whole.AppearsAt memory start) (does : operate bank op o = .write r v) :
    Inside whole start m ∧ Within whole memory start ⟨code, bank.write r v⟩ m.step.1 := by
  obtain ⟨hinside, i, hi, hspells⟩ := h.current happears rfl
  refine ⟨hinside, ?_⟩
  cases hspells with
  | operate _ _ place span =>
    have heffect : effect m.bank m.counter ⟨op, some (.operand o place), span⟩ = .write r v := by
      rw [h.bank]
      exact effect_of_operate does (.inl ⟨r, v, rfl⟩) _ _ _
    rw [Interpreter.step_of_write h.running hi heffect, h.bank]
    exact h.behind rfl rfl nofun rfl rfl

theorem Within.pass {op : Opcode} {mark : Mark}
    (h : Within whole memory start ⟨.jump op mark :: code, bank⟩ m)
    (happears : whole.AppearsAt memory start) (isJump : op.isJump = true)
    (stays : jumps op bank.accumulator = false) :
    Inside whole start m ∧ Within whole memory start ⟨code, bank⟩ m.step.1 := by
  obtain ⟨hinside, i, hi, hspells⟩ := h.current happears rfl
  refine ⟨hinside, ?_⟩
  cases hspells with
  | @jump _ _ l place span leads =>
    obtain ⟨label, rfl, -⟩ := leads
    have heffect : effect m.bank m.counter
        ⟨op, some (.reference mark.text (some label) place), span⟩ = .next := by
      rw [effect_of_jump isJump, h.bank, stays]
      rfl
    rw [Interpreter.step_of_next h.running hi heffect]
    exact h.behind rfl rfl nofun h.bank rfl

theorem Within.jump {op : Opcode} {mark : Mark} {target : Code}
    (h : Within whole memory start ⟨.jump op mark :: code, bank⟩ m)
    (happears : whole.AppearsAt memory start) (hnodup : whole.marks.Nodup)
    (isJump : op.isJump = true) (taken : jumps op bank.accumulator = true)
    (leads : .label mark :: target <:+ whole) :
    Inside whole start m ∧ Within whole memory start ⟨target, bank⟩ m.step.1 := by
  obtain ⟨hinside, i, hi, hspells⟩ := h.current happears rfl
  refine ⟨hinside, ?_⟩
  cases hspells with
  | @jump _ _ l place span address =>
    obtain ⟨label, rfl, hlabel⟩ := address
    have heffect : effect m.bank m.counter
        ⟨op, some (.reference mark.text (some label) place), span⟩ = .jump label.address := by
      rw [effect_of_jump isJump, h.bank, taken]
      rfl
    -- the address is that of the only label with this mark
    obtain ⟨before, rest, hwhole, haddress⟩ := Code.split_of_mem_labelsFrom hlabel
    obtain ⟨before', hwhole'⟩ := leads
    obtain ⟨rfl, rfl⟩ := eq_of_label hnodup hwhole hwhole'.symm
    rw [Interpreter.step_of_jump h.running hi heffect]
    have hat : Within whole memory start ⟨.label mark :: rest, bank⟩
        { m with counter := label.address, state := .idle } :=
      ⟨h.memory, nofun, h.bank, before, hwhole, haddress⟩
    exact hat.skip rfl

/-- **So many steps of the machine lead to a point of the code**, each of them made inside of it. -/
structure Executes (whole : Code) (memory : Array Instruction) (start : Nat) (m : Interpreter)
    (k : Nat) (e : Point) : Prop where
  arrives : Within whole memory start e (m.after k)
  inside : ∀ j < k, Inside whole start (m.after j)

/-- One more step before the others. -/
theorem Executes.before {k : Nat} (hinside : Inside whole start m)
    (h : Executes whole memory start m.step.1 k e) : Executes whole memory start m (k + 1) e := by
  have hstep : ∀ j, m.after (j + 1) = m.step.1.after j := fun j => by
    rw [Nat.add_comm, Interpreter.after_one_add]
  refine ⟨?_, fun j hj => ?_⟩
  · rw [hstep]
    exact h.arrives
  · cases j with
    | zero => exact hinside
    | succ j =>
      rw [hstep]
      exact h.inside j (Nat.lt_of_succ_lt_succ hj)

/-- **Runs of the code are runs of the machine**, step by step. -/
theorem Runs.executes_within {k : Nat} (happears : whole.AppearsAt memory start)
    (hnodup : whole.marks.Nodup) (h : Runs whole k s e) :
    ∀ {m : Interpreter}, Within whole memory start s m → Executes whole memory start m k e := by
  induction h with
  | refl => exact fun hm => ⟨hm, nofun⟩
  | comment text _ ih => exact fun hm => ih (hm.skip rfl)
  | label mark _ ih => exact fun hm => ih (hm.skip rfl)
  | write does _ ih =>
    intro m hm
    obtain ⟨hinside, hstep⟩ := hm.write happears does
    exact .before hinside (ih hstep)
  | pass isJump stays _ ih =>
    intro m hm
    obtain ⟨hinside, hstep⟩ := hm.pass happears isJump stays
    exact .before hinside (ih hstep)
  | jump isJump taken leads _ ih =>
    intro m hm
    obtain ⟨hinside, hstep⟩ := hm.jump happears hnodup isJump taken leads
    exact .before hinside (ih hstep)

end Within

end RegisterMachine.Structured
