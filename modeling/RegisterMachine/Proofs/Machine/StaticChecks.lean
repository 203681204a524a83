import RegisterMachine.Proofs.Assembly.Checked
import RegisterMachine.Proofs.Machine.Effects
import RegisterMachine.Proofs.Machine.Run

/-! # The checks of the assembler are enough for the machine

A machine that runs a checked program never finds an instruction without its argument or a label
that leads nowhere. Its counter stays within the program or just behind it, a jump that is taken
goes to the first declaration of the label, and the one register that may lie outside the bank is
one that a pointer holds.

* `effect_of_checked`: all that a checked instruction can do.
* `Follows`: the invariant of a run, with `follows_step`.
* `Safe`, `assembled_runs_safely`: what every run of every assembled source fulfils. -/

namespace RegisterMachine.Machine

open RegisterMachine.Assembly

/-! ### The effect of a checked instruction -/

/-- The ways in which a checked instruction can halt the machine. A fault is that of a pointer in
the bank whose register names one outside of it. -/
inductive Halts (bank : Bank) (bound : Nat) (i : Instruction) : StopReason → Prop
  | halted : i.opcode = .halt → Halts bank bound i .halted
  | divisionByZero : i.opcode = .div → Halts bank bound i .divisionByZero
  | pointer {index : Nat} {place : Span} {value : UInt32}
      (argument : i.argument = some (.operand (.pointer index) place)) (inside : index < bound)
      (value_eq : bank.read? index = some value) (outside : bank.size ≤ value.toNat) :
      Halts bank bound i (.fault (.registerOutOfRange value.toNat))

section Checked

variable {target : String → Nat} {bound : Nat} {bank : Bank} {o : Operand}

/-- An operand in the bank fails only through a pointer. -/
theorem operandValue_error {fault : Fault} (hbound : ∀ r, o.register? = some r → r < bound)
    (hsize : bound ≤ bank.size) (h : operandValue bank o = .error fault) :
    ∃ index value, o = .pointer index ∧ index < bound ∧ bank.read? index = some value ∧
      bank.size ≤ value.toNat ∧ fault = .registerOutOfRange value.toNat := by
  cases o with
  | immediate value => cases h
  | register register =>
    obtain ⟨value, -, hr⟩ := readRegister_ok (Nat.lt_of_lt_of_le (hbound register rfl) hsize)
    rw [operandValue, hr] at h
    cases h
  | pointer index =>
    have hi := hbound index rfl
    obtain ⟨value, hv, hr⟩ := readRegister_ok (Nat.lt_of_lt_of_le hi hsize)
    rw [operandValue, hr] at h
    obtain ⟨rfl, hout⟩ := readRegister_error h
    exact ⟨index, value, rfl, hi, hv, hout, rfl⟩

theorem computeEffect_halt {op : Opcode} {place span : Span} {reason : StopReason}
    (hbound : ∀ r, o.register? = some r → r < bound) (hsize : bound ≤ bank.size)
    (h : computeEffect bank op o = .halt reason) :
    Halts bank bound ⟨op, some (.operand o place), span⟩ reason := by
  unfold computeEffect at h
  split at h
  · rename_i fault hf
    obtain ⟨index, value, rfl, hi, hv, hout, rfl⟩ := operandValue_error hbound hsize hf
    cases h
    exact .pointer rfl hi hv hout
  · split at h
    · rename_i hc
      obtain ⟨rfl, -, rfl⟩ := compute_error hc
      cases h
      exact .divisionByZero rfl
    · cases h

theorem storeEffect_halt {missing : Fault} {place span : Span} {reason : StopReason}
    (hstore : ∀ value, o ≠ .immediate value) (hbound : ∀ r, o.register? = some r → r < bound)
    (hsize : bound ≤ bank.size) (h : storeEffect bank missing o = .halt reason) :
    Halts bank bound ⟨.store, some (.operand o place), span⟩ reason := by
  cases o with
  | immediate value => exact absurd rfl (hstore value)
  | register register =>
    have hin : register < bank.size := Nat.lt_of_lt_of_le (hbound register rfl) hsize
    have he : storeEffect bank missing (.register register) = .write register bank.accumulator :=
      if_pos hin
    rw [he] at h
    cases h
  | pointer index =>
    have hi := hbound index rfl
    obtain ⟨value, hv, hr⟩ := readRegister_ok (Nat.lt_of_lt_of_le hi hsize)
    have he : storeEffect bank missing (.pointer index) =
        if value.toNat < bank.size then .write value.toNat bank.accumulator
        else .halt (.fault (.registerOutOfRange value.toNat)) := by
      rw [storeEffect, operandTarget, hr]
    rw [he] at h
    by_cases hin : value.toNat < bank.size
    · rw [if_pos hin] at h
      cases h
    · rw [if_neg hin] at h
      cases h
      exact .pointer rfl hi hv (by omega)

/-- A jump among checked instructions leads to its target. -/
theorem effect_of_jump {op : Opcode} {name : String} {label : Label} {place span : Span}
    (hop : op.isJump = true) (address : Nat) :
    effect bank address ⟨op, some (.reference name (some label) place), span⟩ =
      if jumps op bank.accumulator then .jump label.address else .next := by
  cases op <;> first | rfl | cases hop

/-- **What a checked instruction can do**: go on, change a register, jump to its target, or halt
in one of the ways of `Halts`. -/
theorem effect_of_checked {i : Instruction} (h : i.Checked target bound) (hsize : bound ≤ bank.size)
    (address : Nat) :
    effect bank address i = .next ∨
    (∃ register value, effect bank address i = .write register value) ∨
    (∃ name label place, i.argument = some (.reference name (some label) place) ∧
      effect bank address i = .jump (target name)) ∨
    ∃ reason, effect bank address i = .halt reason ∧ Halts bank bound i reason := by
  cases h with
  | halt span => exact .inr (.inr (.inr ⟨.halted, rfl, .halted rfl⟩))
  | @jump op name label place span hop haddress =>
    rw [effect_of_jump hop]
    by_cases hj : jumps op bank.accumulator = true
    · rw [if_pos hj, haddress]
      exact .inr (.inr (.inl ⟨name, label, place, rfl, rfl⟩))
    · rw [if_neg hj]
      exact .inl rfl
  | @operand op o place span hop haccepts hbound =>
    have heffect : effect bank address ⟨op, some (.operand o place), span⟩ =
        if op = .store then storeEffect bank (.missingArgument address) o
        else computeEffect bank op o := by
      cases op <;> first | rfl | exact absurd rfl hop | (cases o <;> cases haccepts)
    rw [heffect]
    by_cases hstore : op = .store
    · subst hstore
      rw [if_pos rfl]
      cases he : storeEffect bank (.missingArgument address) o with
      | next => exact .inl rfl
      | write register value => exact .inr (.inl ⟨register, value, rfl⟩)
      | jump a => exact absurd he (by unfold storeEffect; split <;> [skip; split] <;> simp)
      | halt reason =>
        refine .inr (.inr (.inr ⟨reason, rfl, storeEffect_halt ?_ hbound hsize he⟩))
        rintro value rfl
        cases haccepts
    · rw [if_neg hstore]
      cases he : computeEffect bank op o with
      | next => exact .inl rfl
      | write register value => exact .inr (.inl ⟨register, value, rfl⟩)
      | jump a => exact absurd he (by unfold computeEffect; split <;> [skip; split] <;> simp)
      | halt reason =>
        exact .inr (.inr (.inr
          ⟨reason, rfl, computeEffect_halt hbound hsize he⟩))

end Checked

/-! ### Runs of a checked program -/

/-- **The invariant of a run**: the program and the bank that were loaded, a counter that is at most
just behind the program, and no stop that the checks rule out. -/
structure Follows (p : Program) (size : Nat) (m : Interpreter) : Prop where
  memory : m.memory = p.instructions
  size : m.bank.size = size
  counter : m.counter ≤ p.instructions.size
  knows : m.Knows
  stop : ∀ reason, m.lastStop = some reason → reason = .endOfProgram ∨ reason = .halted ∨
    reason = .divisionByZero ∨ ∃ register, reason = .fault (.registerOutOfRange register)

section Runs

variable {tokens : List Token} {p : Program} {bound size : Nat} {m : Interpreter} {i : Instruction}

theorem Follows.current (h : Follows p size m) (hi : m.current? = some i) :
    i ∈ p.instructions ∧ m.counter < p.instructions.size := by
  rw [Interpreter.current?, h.memory] at hi
  obtain ⟨hlt, rfl⟩ := Array.getElem?_eq_some_iff.mp hi
  exact ⟨Array.getElem_mem hlt, hlt⟩

theorem Halts.stop {bank : Bank} {reason : StopReason} (h : Halts bank bound i reason) :
    reason = .endOfProgram ∨ reason = .halted ∨ reason = .divisionByZero ∨
      ∃ register, reason = .fault (.registerOutOfRange register) := by
  cases h with
  | halted => exact .inr (.inl rfl)
  | divisionByZero => exact .inr (.inr (.inl rfl))
  | pointer => exact .inr (.inr (.inr ⟨_, rfl⟩))

/-- **One step keeps the invariant.** -/
theorem follows_step (hp : p.Checked tokens bound) (hsize : bound ≤ size) (h : Follows p size m) :
    Follows p size m.step.1 := by
  have hknows := h.knows.step
  obtain ⟨-, hstep⟩ | ⟨-, -, hstep⟩ | ⟨i, -, hi, hstep⟩ := m.step_cases
  · rwa [hstep]
  · rw [hstep] at hknows ⊢
    exact ⟨h.memory, h.size, h.counter, hknows, fun reason hr => .inl (Option.some.inj hr).symm⟩
  obtain ⟨hmem, hlt⟩ := h.current hi
  have hchecked := effect_of_checked (hp.instructions i hmem) (h.size ▸ hsize) m.counter
  obtain ⟨-, hstep⟩ | ⟨register, value, -, hstep⟩ | ⟨address, he, hstep⟩ | ⟨reason, he, hstep⟩ :=
    hstep
  · rw [hstep] at hknows ⊢
    exact ⟨h.memory, h.size, hlt, hknows, h.stop⟩
  · rw [hstep] at hknows ⊢
    exact ⟨h.memory, by rw [Bank.size_write, h.size], hlt, hknows, h.stop⟩
  · rw [hstep] at hknows ⊢
    refine ⟨h.memory, h.size, ?_, hknows, h.stop⟩
    rw [he] at hchecked
    obtain hn | ⟨_, _, hn⟩ | ⟨name, label, place, -, hn⟩ | ⟨_, hn, -⟩ := hchecked
    · cases hn
    · cases hn
    · cases hn
      rw [hp.size]
      exact instructionsBefore_le tokens name
    · cases hn
  · rw [hstep] at hknows ⊢
    refine ⟨h.memory, h.size, hlt, hknows, fun reason' hr => ?_⟩
    rw [he] at hchecked
    obtain hn | ⟨_, _, hn⟩ | ⟨_, _, _, -, hn⟩ | ⟨_, hn, hhalts⟩ := hchecked
    · cases hn
    · cases hn
    · cases hn
    · cases hn
      cases hr
      exact hhalts.stop

theorem follows_load {n : Nat} {fresh : Interpreter} (h : fresh.load p n = .ok m) :
    Follows p (n + 1) m := by
  have hknows := Interpreter.knows_load h
  obtain ⟨_, -, rfl⟩ := Success.map_ok h
  exact ⟨rfl, Bank.size_zero n, Nat.zero_le _, hknows, fun reason hr => nomatch hr⟩

/-- A jump that is taken goes on at the first declaration of its label. -/
theorem step_of_taken_jump (hp : p.Checked tokens bound) (h : Follows p size m)
    (hrun : m.lastStop = none) (hi : m.current? = some i) (hjump : i.opcode.isJump = true)
    (htaken : jumps i.opcode m.bank.accumulator = true) :
    ∃ name target place, i.argument = some (.reference name target place) ∧
      (∃ t ∈ tokens, t.declares name) ∧
      m.step.1.counter = instructionsBefore tokens name ∧ m.step.1.lastStop = none := by
  obtain ⟨hmem, -⟩ := h.current hi
  have hdeclared := hp.declared i hmem
  cases hp.instructions i hmem with
  | halt span => cases hjump
  | @operand op o place span hop haccepts =>
    cases (isJump_of_accepts haccepts).symm.trans hjump
  | @jump op name label place span hop haddress =>
    have he : effect m.bank m.counter ⟨op, some (.reference name (some label) place), span⟩ = _ :=
      effect_of_jump hop m.counter
    rw [if_pos htaken, haddress] at he
    have hstep := Interpreter.step_of_jump (h.knows.running_iff.mp hrun) hi he
    refine ⟨name, some label, place, rfl, hdeclared _ _ _ rfl, ?_, ?_⟩
    · rw [hstep]
    · rw [hstep]
      exact hrun

/-- A step that stops at a register outside the bank executes an instruction whose pointer holds
the number of that register. -/
theorem step_of_outside (hp : p.Checked tokens bound) (hsize : bound ≤ size) (h : Follows p size m)
    {register : Nat} (hrun : m.lastStop = none)
    (hstop : m.step.1.lastStop = some (.fault (.registerOutOfRange register))) :
    ∃ i index place value, m.current? = some i ∧
      i.argument = some (.operand (.pointer index) place) ∧ index < bound ∧
      m.bank.read? index = some value ∧ value.toNat = register ∧ size ≤ register := by
  obtain ⟨hs, -⟩ | ⟨-, -, hstep⟩ | ⟨i, -, hi, hstep⟩ := m.step_cases
  · exact absurd hs (h.knows.running_iff.mp hrun)
  · rw [hstep] at hstop
    cases hstop
  obtain ⟨hmem, -⟩ := h.current hi
  have hchecked := effect_of_checked (hp.instructions i hmem) (h.size ▸ hsize) m.counter
  obtain ⟨-, hstep⟩ | ⟨_, _, -, hstep⟩ | ⟨_, -, hstep⟩ | ⟨reason, he, hstep⟩ := hstep
  · rw [hstep] at hstop
    cases hrun.symm.trans hstop
  · rw [hstep] at hstop
    cases hrun.symm.trans hstop
  · rw [hstep] at hstop
    cases hrun.symm.trans hstop
  · rw [hstep] at hstop
    cases hstop
    rw [he] at hchecked
    obtain hn | ⟨_, _, hn⟩ | ⟨_, _, _, -, hn⟩ | ⟨_, hn, hhalts⟩ := hchecked
    · cases hn
    · cases hn
    · cases hn
    · cases hn
      cases hhalts with
      | @pointer index place value argument inside value_eq outside =>
        exact ⟨i, index, place, value, hi, argument, inside, value_eq, rfl, h.size ▸ outside⟩

end Runs

/-- **What the checks promise of a machine** with so many registers that runs the program of these
tokens: the counter is at most just behind the program; a jump that is taken goes on at the first
declaration of its label in the source; no label is unresolved and no argument missing; and a
register outside the bank is one that the pointer of the executed instruction holds. -/
structure Safe (tokens : List Token) (p : Program) (registers : Nat) (m : Interpreter) : Prop where
  counter : m.counter ≤ p.instructions.size
  jump : ∀ i, m.lastStop = none → m.current? = some i → i.opcode.isJump = true →
    jumps i.opcode m.bank.accumulator = true →
    ∃ name target place, i.argument = some (.reference name target place) ∧
      (∃ t ∈ tokens, t.declares name) ∧
      m.step.1.counter = instructionsBefore tokens name ∧ m.step.1.lastStop = none
  resolved : ∀ address, m.lastStop ≠ some (.fault (.unresolvedLabel address))
  complete : ∀ address, m.lastStop ≠ some (.fault (.missingArgument address))
  outside : ∀ register, m.lastStop = none →
    m.step.1.lastStop = some (.fault (.registerOutOfRange register)) →
    ∃ i index place value, m.current? = some i ∧
      i.argument = some (.operand (.pointer index) place) ∧ index ≤ registers ∧
      m.bank.read? index = some value ∧ value.toNat = register ∧ registers < register

theorem safe_of_follows {tokens : List Token} {p : Program} {n registers : Nat} {m : Interpreter}
    (hp : p.Checked tokens (n + 1)) (hn : n ≤ registers) (h : Follows p (registers + 1) m) :
    Safe tokens p registers m := by
  have hsize : n + 1 ≤ registers + 1 := Nat.succ_le_succ hn
  refine ⟨h.counter, fun i => step_of_taken_jump hp h, ?_, ?_, ?_⟩
  · intro address hstop
    simpa using h.stop _ hstop
  · intro address hstop
    simpa using h.stop _ hstop
  · intro register hrun hstop
    obtain ⟨i, index, place, value, hi, ha, hbound, hv, hr, hout⟩ :=
      step_of_outside hp hsize h hrun hstop
    exact ⟨i, index, place, value, hi, ha, by omega, hv, hr, hout⟩

theorem load_ok {registers : Nat} (h : registers ≤ maxRegisters) (p : Program)
    (fresh : Interpreter) : ∃ start, fresh.load p registers = .ok start := by
  simp only [Interpreter.load, checkCount, if_neg (Nat.not_lt.mpr h)]
  exact ⟨_, rfl⟩

/-- **The static checks are sound for the machine.** A source that is assembled for `n` registers
is safe on every machine with at least as many, behind any number of steps. -/
theorem assembled_runs_safely {source : String} {n registers : Nat} {p : Program}
    (hp : assemble source n = .ok p) (hn : n ≤ registers) (hmax : registers ≤ maxRegisters)
    (fresh : Interpreter) :
    ∃ tokens start, tokenize source = .ok tokens ∧ fresh.load p registers = .ok start ∧
      ∀ k, Safe tokens p registers (start.after k) := by
  obtain ⟨-, tokens, htokens, hchecked⟩ := assemble_ok hp
  obtain ⟨start, hstart⟩ := load_ok hmax p fresh
  refine ⟨tokens, start, htokens, hstart, fun k => safe_of_follows hchecked hn ?_⟩
  exact Interpreter.invariant_after (fun _ => follows_step hchecked (Nat.succ_le_succ hn))
    (follows_load hstart) k

/-- Two labels of one name, and a jump to it in the other case. -/
theorem first_label_runs_safely :
    ∃ p, assemble "x: load #9\nstore 1\nX: load *1\ngoto x" 1 = .ok p ∧
      p.labels.map (·.address) = #[0, 2] ∧ 1 ≤ 3 ∧ 3 ≤ maxRegisters ∧
      ∃ tokens start, tokenize "x: load #9\nstore 1\nX: load *1\ngoto x" = .ok tokens ∧
        Interpreter.load {} p 3 = .ok start ∧ ∀ k, Safe tokens p 3 (start.after k) := by
  have h : (assemble "x: load #9\nstore 1\nX: load *1\ngoto x" 1).toOption.map
      (·.labels.map (·.address)) = some #[0, 2] := by decide +kernel
  obtain ⟨p, hp, hl⟩ := Option.map_eq_some_iff.mp h
  exact ⟨p, Success.ok_of_toOption hp, hl, by decide, by decide,
    assembled_runs_safely (Success.ok_of_toOption hp) (by decide) (by decide) {}⟩

end RegisterMachine.Machine
