import RegisterMachine.Machine.Effect

/-! # Kinds of instructions

An instruction computes, stores or moves the counter only. Opcode and argument alone decide which of
them, so each kind is treated once for all the opcodes that belong to it.

* `instruction_cases`: the kinds, as cases; `effect_kinds`: what they do to the bank.
* `lt_size_of_effect`: what is written is a register of the bank. -/

namespace RegisterMachine.Machine

open RegisterMachine.Assembly

variable {bank : Bank} {register : Nat} {value : UInt32}

theorem read?_eq_none (h : bank.size ≤ register) : bank.read? register = none :=
  Option.map_eq_none_iff.mpr (Array.getElem?_eq_none h)

theorem lt_size_of_read? (h : bank.read? register = some value) : register < bank.size := by
  obtain ⟨cell, hcell, -⟩ := Option.map_eq_some_iff.mp h
  exact (Array.getElem?_eq_some_iff.mp hcell).1

theorem read?_isSome (h : register < bank.size) : ∃ value, bank.read? register = some value :=
  ⟨bank.cells[register].value, Option.map_eq_some_iff.mpr ⟨_, Array.getElem?_eq_getElem h, rfl⟩⟩

theorem size_le_of_read? (h : bank.read? register = none) : bank.size ≤ register :=
  Array.getElem?_eq_none_iff.mp (Option.map_eq_none_iff.mp h)

theorem readRegister_ok (h : register < bank.size) :
    ∃ value, bank.read? register = some value ∧ readRegister bank register = .ok value := by
  obtain ⟨value, hv⟩ := read?_isSome h
  exact ⟨value, hv, by rw [readRegister, hv]⟩

theorem readRegister_error {fault : Fault}
    (h : readRegister bank register = .error fault) :
    fault = .registerOutOfRange register ∧ bank.size ≤ register := by
  unfold readRegister at h
  split at h
  · cases h
  · rename_i hnone
    cases h
    exact ⟨rfl, size_le_of_read? hnone⟩

/-- A register outside the bank is refused by its number. -/
theorem readRegister_outside (h : bank.size ≤ register) :
    readRegister bank register = .error (.registerOutOfRange register) := by
  rw [readRegister, read?_eq_none h]

theorem compute_error {op : Opcode} {accumulator value : UInt32} {reason : StopReason}
    (h : compute op accumulator value = .error reason) :
    op = .div ∧ value = 0 ∧ reason = .divisionByZero := by
  unfold compute at h
  split at h
  case h_4 =>
    split at h
    · rename_i hzero
      cases h
      exact ⟨rfl, hzero, rfl⟩
    · cases h
  all_goals cases h

theorem effect_of_isJump {op : Opcode} (hop : op.isJump = true) (address : Nat)
    (argument : Option Argument) (span : Span) :
    effect bank address ⟨op, argument, span⟩ =
      if jumps op bank.accumulator then jumpEffect address argument else .next := by
  cases op <;> first | rfl | cases hop

theorem effect_of_computing {op : Opcode} (hop : op.isJump = false) (hstore : op ≠ .store)
    (hhalt : op ≠ .halt) (address : Nat) (o : Operand) (place span : Span) :
    effect bank address ⟨op, some (.operand o place), span⟩ = computeEffect bank op o := by
  cases op <;> first | rfl | exact absurd rfl hstore | exact absurd rfl hhalt | cases hop

/-- Without an operand only `END` and jumps do anything. -/
theorem effect_of_missing {i : Instruction} (hop : i.opcode.isJump = false)
    (hhalt : i.opcode ≠ .halt) (hargument : ∀ o place, i.argument ≠ some (.operand o place))
    (address : Nat) : effect bank address i = .halt (.fault (.missingArgument address)) := by
  obtain ⟨op, argument, span⟩ := i
  obtain _ | ⟨o, place⟩ | ⟨name, target, place⟩ := argument
  · cases op <;> first | rfl | exact absurd rfl hhalt | cases hop
  · exact absurd rfl (hargument o place)
  · cases op <;> first | rfl | exact absurd rfl hhalt | cases hop

theorem jumpEffect_ne_write {address : Nat} {argument : Option Argument} :
    jumpEffect address argument ≠ .write register value := by
  unfold jumpEffect
  split <;> exact nofun

/-- **Instructions by what they do**: `END`, jumps, `STORE` and the opcodes that compute, with their
operand, and all that miss their operand. -/
@[elab_as_elim]
theorem instruction_cases {motive : Instruction → Prop}
    (halt : ∀ argument span, motive ⟨.halt, argument, span⟩)
    (jump : ∀ op argument span, op.isJump = true → motive ⟨op, argument, span⟩)
    (store : ∀ o place span, motive ⟨.store, some (.operand o place), span⟩)
    (computing : ∀ op o place span, op.isJump = false → op ≠ .store → op ≠ .halt →
      motive ⟨op, some (.operand o place), span⟩)
    (missing : ∀ op argument span, op.isJump = false → op ≠ .halt →
      (∀ o place, argument ≠ some (.operand o place)) → motive ⟨op, argument, span⟩)
    (i : Instruction) : motive i := by
  obtain ⟨op, argument, span⟩ := i
  by_cases hhalt : op = .halt
  · subst hhalt
    exact halt argument span
  cases hjump : op.isJump with
  | true => exact jump op argument span hjump
  | false =>
    by_cases hoperand : ∃ o place, argument = some (.operand o place)
    · obtain ⟨o, place, rfl⟩ := hoperand
      by_cases hstore : op = .store
      · subst hstore
        exact store o place span
      · exact computing op o place span hjump hstore hhalt
    · exact missing op argument span hjump hhalt fun o place h => hoperand ⟨o, place, h⟩

/-- **An instruction computes, stores, or moves the counter only**; the last depends on the
accumulator at most. -/
theorem effect_kinds (address : Nat) (i : Instruction) :
    (∃ op o, ∀ bank, effect bank address i = computeEffect bank op o) ∨
    (∃ missing o, ∀ bank, effect bank address i = storeEffect bank missing o) ∨
    ∃ move : UInt32 → Effect, (∀ a register value, move a ≠ .write register value) ∧
      ∀ bank, effect bank address i = move bank.accumulator := by
  cases i using instruction_cases with
  | halt argument span =>
    exact .inr (.inr ⟨fun _ => .halt .halted, fun _ _ _ => nofun, fun _ => rfl⟩)
  | jump op argument span hjump =>
    refine .inr (.inr ⟨fun a => if jumps op a then jumpEffect address argument else .next,
      fun a register value => ?_, fun bank => effect_of_isJump hjump address argument span⟩)
    dsimp only
    split
    · exact jumpEffect_ne_write
    · exact nofun
  | store o place span => exact .inr (.inl ⟨.missingArgument address, o, fun _ => rfl⟩)
  | computing op o place span hjump hstore hhalt =>
    exact .inl ⟨op, o, fun _ => effect_of_computing hjump hstore hhalt address o place span⟩
  | missing op argument span hjump hhalt hargument =>
    exact .inr (.inr ⟨fun _ => .halt (.fault (.missingArgument address)), fun _ _ _ => nofun,
      fun _ => effect_of_missing hjump hhalt hargument address⟩)

theorem computeEffect_write {op : Opcode} {o : Operand}
    (h : computeEffect bank op o = .write register value) : register = 0 := by
  unfold computeEffect at h
  split at h
  · cases h
  · split at h
    · cases h
    · cases h
      rfl

theorem storeEffect_write {missing : Fault} {o : Operand}
    (h : storeEffect bank missing o = .write register value) :
    operandTarget bank missing o = .ok register ∧ register < bank.size := by
  unfold storeEffect at h
  split at h
  · cases h
  · rename_i htarget
    split at h
    · rename_i hinside
      cases h
      exact ⟨htarget, hinside⟩
    · cases h

/-- What an instruction writes is a register of the bank. -/
theorem lt_size_of_effect (hbank : 0 < bank.size) {address : Nat} {i : Instruction}
    (h : effect bank address i = .write register value) : register < bank.size := by
  obtain ⟨op, o, heffect⟩ | ⟨missing, o, heffect⟩ | ⟨move, hno, heffect⟩ := effect_kinds address i
  · rw [heffect] at h
    rwa [computeEffect_write h]
  · rw [heffect] at h
    exact (storeEffect_write h).2
  · rw [heffect] at h
    exact absurd h (hno _ _ _)

theorem computeEffect_ne_cancelled {op : Opcode} {o : Operand} :
    computeEffect bank op o ≠ .halt .cancelled := by
  unfold computeEffect
  split
  · exact nofun
  · split
    · rename_i hcompute
      rw [(compute_error hcompute).2.2]
      exact nofun
    · exact nofun

theorem storeEffect_ne_cancelled {missing : Fault} {o : Operand} :
    storeEffect bank missing o ≠ .halt .cancelled := by
  unfold storeEffect
  split
  · exact nofun
  · split <;> exact nofun

theorem jumpEffect_ne_cancelled {address : Nat} {argument : Option Argument} :
    jumpEffect address argument ≠ .halt .cancelled := by
  unfold jumpEffect
  split <;> exact nofun

/-- No instruction cancels a run. -/
theorem effect_ne_cancelled (address : Nat) (i : Instruction) :
    effect bank address i ≠ .halt .cancelled := by
  cases i using instruction_cases with
  | halt argument span => exact nofun
  | jump op argument span hjump =>
    rw [effect_of_isJump hjump]
    split
    · exact jumpEffect_ne_cancelled
    · exact nofun
  | store o place span => exact storeEffect_ne_cancelled
  | computing op o place span hjump hstore hhalt =>
    rw [effect_of_computing hjump hstore hhalt]
    exact computeEffect_ne_cancelled
  | missing op argument span hjump hhalt hargument =>
    rw [effect_of_missing hjump hhalt hargument]
    exact nofun

end RegisterMachine.Machine
