import RegisterMachine.Assembly.Program.Parser
import RegisterMachine.Proofs.Machine.Effects
import RegisterMachine.Proofs.Machine.Histories

/-! # What one instruction touches

Whatever program is loaded, an instruction changes one register at most, and which one is seen
before it is executed. If it halts the machine, it has changed nothing but the counter. It goes by
the registers of the bank only, and a register outside of it is refused by its number.

* `written?`, `accessed`: the register that may change, and all that are looked at.
* `Stops`: the reasons for which an instruction halts the machine; `effect_halt_iff`: just these.
* `effect_congr`: other registers than those accessed make no difference.
* `Contained`, `instruction_contained`: all of it for every machine. -/

namespace RegisterMachine.Machine

open RegisterMachine.Assembly

/-! ### Registers -/

/-- The registers that an operand leads to: the one that is written in it and, behind a pointer, the
one that this register names. -/
def operandRegisters (bank : Bank) : Operand → List Nat
  | .immediate _ => []
  | .register register => [register]
  | .pointer register => register :: ((bank.read? register).map UInt32.toNat).toList

/-- The registers that an argument leads to. -/
def argumentRegisters (bank : Bank) : Option Argument → List Nat
  | some (.operand o _) => operandRegisters bank o
  | _ => []

/-- **The registers that an instruction accesses.** All but `END` look at the accumulator, and all
but jumps follow their argument. -/
def accessed (bank : Bank) (i : Instruction) : List Nat :=
  match i.opcode with
  | .halt => []
  | .goto | .jzero | .jnzero => [0]
  | _ => 0 :: argumentRegisters bank i.argument

/-- **The register that an instruction may change**: the accumulator if it computes, the register
that its operand addresses if it stores, and none if it jumps or ends. -/
def written? (bank : Bank) (i : Instruction) : Option Nat :=
  match i.opcode, i.argument with
  | .goto, _ | .jzero, _ | .jnzero, _ | .halt, _ => none
  | .store, some (.operand (.register register) _) => some register
  | .store, some (.operand (.pointer register) _) => (bank.read? register).map UInt32.toNat
  | .store, _ => none
  | _, _ => some 0

section Operands

variable {bank : Bank} {o : Operand} {register : Nat}

theorem mem_operandRegisters_pointer {index : Nat} :
    register ∈ operandRegisters bank (.pointer index) ↔
      register = index ∨ ∃ target, bank.read? index = some target ∧ target.toNat = register := by
  simp [operandRegisters]

theorem operandValue_inside (h : ∀ r ∈ operandRegisters bank o, r < bank.size) :
    ∃ value, operandValue bank o = .ok value := by
  cases o with
  | immediate value => exact ⟨value, rfl⟩
  | register index =>
    obtain ⟨value, -, hvalue⟩ := readRegister_ok (h index (List.mem_singleton_self index))
    exact ⟨value, hvalue⟩
  | pointer index =>
    obtain ⟨target, hread, htarget⟩ := readRegister_ok (h index List.mem_cons_self)
    have hinside := h target.toNat (mem_operandRegisters_pointer.mpr (.inr ⟨target, hread, rfl⟩))
    obtain ⟨value, -, hvalue⟩ := readRegister_ok hinside
    refine ⟨value, ?_⟩
    rw [operandValue, htarget]
    exact hvalue

/-- A register outside the bank, at either level of a pointer, is refused. -/
theorem operandValue_outside (h : register ∈ operandRegisters bank o)
    (hout : bank.size ≤ register) :
    operandValue bank o = .error (.registerOutOfRange register) := by
  cases o with
  | immediate value => cases h
  | register index =>
    cases List.mem_singleton.mp h
    exact readRegister_outside hout
  | pointer index =>
    obtain rfl | ⟨target, hread, rfl⟩ := mem_operandRegisters_pointer.mp h
    · rw [operandValue, readRegister_outside hout]
    · rw [operandValue, readRegister, hread]
      exact readRegister_outside hout

/-- What is stored goes to a register that the operand leads to. -/
theorem storeEffect_inside {missing : Fault} (ho : ∀ value, o ≠ .immediate value)
    (h : ∀ r ∈ operandRegisters bank o, r < bank.size) :
    ∃ target, storeEffect bank missing o = .write target bank.accumulator := by
  cases o with
  | immediate value => exact absurd rfl (ho value)
  | register index => exact ⟨index, if_pos (h index (List.mem_singleton_self index))⟩
  | pointer index =>
    obtain ⟨target, hread, htarget⟩ := readRegister_ok (h index List.mem_cons_self)
    have hinside := h target.toNat (mem_operandRegisters_pointer.mpr (.inr ⟨target, hread, rfl⟩))
    refine ⟨target.toNat, ?_⟩
    rw [storeEffect, operandTarget, htarget]
    exact if_pos hinside

theorem storeEffect_outside {missing : Fault} (h : register ∈ operandRegisters bank o)
    (hout : bank.size ≤ register) :
    storeEffect bank missing o = .halt (.fault (.registerOutOfRange register)) := by
  cases o with
  | immediate value => cases h
  | register index =>
    cases List.mem_singleton.mp h
    exact if_neg (Nat.not_lt.mpr hout)
  | pointer index =>
    obtain rfl | ⟨target, hread, rfl⟩ := mem_operandRegisters_pointer.mp h
    · rw [storeEffect, operandTarget, readRegister_outside hout]
    · rw [storeEffect, operandTarget, readRegister, hread]
      exact if_neg (Nat.not_lt.mpr hout)

theorem written?_of_storeEffect {missing : Fault} {value : UInt32} {place span : Span}
    (h : storeEffect bank missing o = .write register value) :
    written? bank ⟨.store, some (.operand o place), span⟩ = some register := by
  obtain ⟨htarget, -⟩ := storeEffect_write h
  cases o with
  | immediate value => cases htarget
  | register index =>
    cases htarget
    rfl
  | pointer index =>
    show (bank.read? index).map UInt32.toNat = some register
    cases hread : bank.read? index with
    | none =>
      rw [operandTarget, readRegister, hread] at htarget
      cases htarget
    | some target =>
      rw [operandTarget, readRegister, hread] at htarget
      cases htarget
      rfl

end Operands

/-! ### Why an instruction halts -/

/-- **The reasons for which an instruction at this address halts the machine.** An argument is
missing also if it is of a kind that the opcode does not take. -/
inductive Stops (bank : Bank) (address : Nat) (i : Instruction) : StopReason → Prop
  | halted (op : i.opcode = .halt) : Stops bank address i .halted
  | divisionByZero {o : Operand} {place : Span} (op : i.opcode = .div)
      (argument : i.argument = some (.operand o place)) (zero : operandValue bank o = .ok 0) :
      Stops bank address i .divisionByZero
  | outside {o : Operand} {place : Span} {register : Nat} (op : i.opcode ≠ .halt)
      (argument : i.argument = some (.operand o place))
      (accepts : i.opcode.accepts (.operand o place) = true)
      (leads : register ∈ operandRegisters bank o) (outside : bank.size ≤ register) :
      Stops bank address i (.fault (.registerOutOfRange register))
  | unresolved {name : String} {place : Span} (op : i.opcode.isJump = true)
      (taken : jumps i.opcode bank.accumulator = true)
      (argument : i.argument = some (.reference name none place)) :
      Stops bank address i (.fault (.unresolvedLabel address))
  | missing (op : i.opcode ≠ .halt)
      (taken : i.opcode.isJump = true → jumps i.opcode bank.accumulator = true)
      (argument : ∀ a, i.argument = some a → i.opcode.accepts a = false) :
      Stops bank address i (.fault (.missingArgument address))

section Stops

variable {bank : Bank} {address : Nat} {i : Instruction} {reason : StopReason}

theorem Stops.effect_eq (h : Stops bank address i reason) :
    effect bank address i = .halt reason := by
  cases h with
  | halted hop =>
    rw [effect, hop]
  | divisionByZero hop hargument hzero =>
    obtain ⟨op, argument, span⟩ := i
    cases hop
    cases hargument
    show computeEffect bank .div _ = _
    rw [computeEffect, hzero]
    rfl
  | @outside o place register hop hargument haccepts hleads hout =>
    obtain ⟨op, argument, span⟩ := i
    cases hargument
    by_cases hstore : op = .store
    · subst hstore
      exact storeEffect_outside hleads hout
    · rw [effect_of_computing (isJump_of_accepts haccepts) hstore hop, computeEffect,
        operandValue_outside hleads hout]
  | unresolved hop htaken hargument =>
    obtain ⟨op, argument, span⟩ := i
    cases hargument
    rw [effect_of_isJump hop, if_pos htaken]
    rfl
  | missing hop htaken hargument =>
    cases i using instruction_cases with
    | halt argument span => exact absurd rfl hop
    | jump op argument span hjump =>
      rw [effect_of_isJump hjump, if_pos (htaken hjump)]
      obtain _ | ⟨o, place⟩ | ⟨name, target, place⟩ := argument
      · rfl
      · rfl
      · cases hjump.symm.trans (hargument _ rfl)
    | store o place span =>
      obtain ⟨-, value, rfl⟩ := (accepts_operand_eq_false rfl).mp (hargument _ rfl)
      rfl
    | computing op o place span hjump hstore hhalt =>
      obtain ⟨rfl, -⟩ := (accepts_operand_eq_false hjump).mp (hargument _ rfl)
      exact absurd rfl hstore
    | missing op argument span hjump hhalt hnone =>
      exact effect_of_missing hjump hhalt hnone address

/-- An instruction whose operand leads outside the bank halts for that reason. -/
theorem stops_of_outside {op : Opcode} {o : Operand} {place span : Span} (hop : op ≠ .halt)
    (accepts : op.accepts (.operand o place) = true)
    (hout : ¬ ∀ r ∈ operandRegisters bank o, r < bank.size)
    (h : effect bank address ⟨op, some (.operand o place), span⟩ = .halt reason) :
    Stops bank address ⟨op, some (.operand o place), span⟩ reason := by
  simp only [not_forall, Nat.not_lt] at hout
  obtain ⟨register, hleads, hout⟩ := hout
  have hstops : Stops bank address ⟨op, some (.operand o place), span⟩ _ :=
    .outside hop rfl accepts hleads hout
  cases hstops.effect_eq.symm.trans h
  exact hstops

theorem stops_of_effect (h : effect bank address i = .halt reason) :
    Stops bank address i reason := by
  cases i using instruction_cases with
  | halt argument span =>
    cases h
    exact .halted rfl
  | jump op argument span hjump =>
    have hhalt : op ≠ .halt := ne_halt_of_isJump hjump
    rw [effect_of_isJump hjump] at h
    split at h
    · rename_i htaken
      obtain _ | ⟨o, place⟩ | ⟨name, _ | label, place⟩ := argument
      · cases h
        refine .missing hhalt (fun _ => htaken) fun a ha => ?_
        cases ha
      · cases h
        refine .missing hhalt (fun _ => htaken) fun a ha => ?_
        cases ha
        cases o <;> simp [Opcode.accepts, hjump]
      · cases h
        exact .unresolved hjump htaken rfl
      · cases h
    · cases h
  | store o place span =>
    have hstore : Opcode.store ≠ .halt := by decide
    by_cases hvalue : ∃ value, o = .immediate value
    · obtain ⟨value, rfl⟩ := hvalue
      cases h
      have hjump : Opcode.store.isJump ≠ true := by decide
      refine .missing hstore (fun htrue => absurd htrue hjump) fun a ha => ?_
      cases ha
      rfl
    have haccepts : Opcode.store.accepts (.operand o place) = true :=
      Bool.of_not_eq_false fun hno => hvalue ((accepts_operand_eq_false rfl).mp hno).2
    by_cases hinside : ∀ r ∈ operandRegisters bank o, r < bank.size
    · have haddress : ∀ value, o ≠ .immediate value := fun value heq => hvalue ⟨value, heq⟩
      obtain ⟨target, heffect⟩ : ∃ target, storeEffect bank (.missingArgument address) o =
          .write target bank.accumulator := storeEffect_inside haddress hinside
      cases heffect.symm.trans h
    · exact stops_of_outside hstore haccepts hinside h
  | computing op o place span hjump hstore hhalt =>
    have haccepts : op.accepts (.operand o place) = true :=
      Bool.of_not_eq_false fun hno => hstore ((accepts_operand_eq_false hjump).mp hno).1
    by_cases hinside : ∀ r ∈ operandRegisters bank o, r < bank.size
    · obtain ⟨value, hvalue⟩ := operandValue_inside hinside
      rw [effect_of_computing hjump hstore hhalt, computeEffect, hvalue] at h
      dsimp only at h
      split at h
      · rename_i hcompute
        obtain ⟨rfl, rfl, rfl⟩ := compute_error hcompute
        cases h
        exact .divisionByZero rfl rfl hvalue
      · cases h
    · exact stops_of_outside hhalt haccepts hinside h
  | missing op argument span hjump hhalt hnone =>
    rw [effect_of_missing hjump hhalt hnone] at h
    cases h
    refine .missing hhalt (fun htrue => absurd (hjump.symm.trans htrue) Bool.false_ne_true)
      fun a ha => ?_
    obtain ⟨o, place⟩ | ⟨name, target, place⟩ := a
    · exact absurd ha (hnone o place)
    · exact hjump

/-- **An instruction halts the machine for these reasons, and for no other.** -/
theorem effect_halt_iff : effect bank address i = .halt reason ↔ Stops bank address i reason :=
  ⟨stops_of_effect, Stops.effect_eq⟩

end Stops

/-! ### What an instruction accesses -/

section Accessed

variable {bank other : Bank} {address register : Nat} {value : UInt32} {i : Instruction}
  {op : Opcode} {o : Operand} {place span : Span}

theorem zero_mem_accessed (hhalt : i.opcode ≠ .halt) : 0 ∈ accessed bank i := by
  unfold accessed
  split
  · contradiction
  all_goals exact List.mem_cons_self

theorem accessed_of_isJump {argument : Option Argument} (hjump : op.isJump = true) :
    accessed bank ⟨op, argument, span⟩ = [0] := by
  cases op <;> first | rfl | cases hjump

theorem accessed_of_argument {argument : Option Argument} (hjump : op.isJump = false)
    (hhalt : op ≠ .halt) :
    accessed bank ⟨op, argument, span⟩ = 0 :: argumentRegisters bank argument := by
  cases op <;> first | rfl | exact absurd rfl hhalt | cases hjump

/-- Behind the accumulator, only the operand of an instruction leads to a register. -/
theorem operand_of_accessed (h : register ∈ accessed bank i) :
    register = 0 ∨ ∃ o place, i.opcode.isJump = false ∧ i.opcode ≠ .halt ∧
      i.argument = some (.operand o place) ∧ register ∈ operandRegisters bank o := by
  obtain ⟨op, argument, span⟩ := i
  by_cases hhalt : op = .halt
  · subst hhalt
    cases h
  cases hjump : op.isJump with
  | true =>
    rw [accessed_of_isJump hjump] at h
    exact .inl (List.mem_singleton.mp h)
  | false =>
    rw [accessed_of_argument hjump hhalt] at h
    obtain rfl | h := List.mem_cons.mp h
    · exact .inl rfl
    obtain _ | ⟨o, place⟩ | ⟨name, target, place⟩ := argument
    · cases h
    · exact .inr ⟨o, place, rfl, hhalt, rfl, h⟩
    · cases h

/-- An instruction does not get past a register outside the bank. -/
theorem Stops.of_accessed (hbank : 0 < bank.size) (h : register ∈ accessed bank i)
    (hout : bank.size ≤ register) :
    Stops bank address i (.fault (.registerOutOfRange register)) := by
  obtain rfl | ⟨o, place, hjump, hhalt, hargument, hleads⟩ := operand_of_accessed h
  · exact absurd hbank (Nat.not_lt.mpr hout)
  refine .outside hhalt hargument ?_ hleads hout
  cases haccepts : i.opcode.accepts (.operand o place) with
  | true => rfl
  | false =>
    obtain ⟨-, value, rfl⟩ := (accepts_operand_eq_false hjump).mp haccepts
    cases hleads

/-- **What is written is the register that was foreseen.** -/
theorem written?_of_effect (h : effect bank address i = .write register value) :
    written? bank i = some register := by
  cases i using instruction_cases with
  | halt argument span => cases h
  | jump op argument span hjump =>
    rw [effect_of_isJump hjump] at h
    split at h
    · exact absurd h jumpEffect_ne_write
    · cases h
  | store o place span => exact written?_of_storeEffect h
  | computing op o place span hjump hstore hhalt =>
    rw [effect_of_computing hjump hstore hhalt] at h
    cases computeEffect_write h
    cases op <;> first | rfl | exact absurd rfl hstore | exact absurd rfl hhalt | cases hjump
  | missing op argument span hjump hhalt hnone =>
    rw [effect_of_missing hjump hhalt hnone] at h
    cases h

theorem operandTarget_congr {missing : Fault}
    (h : ∀ r ∈ operandRegisters bank o, other.read? r = bank.read? r) :
    operandTarget other missing o = operandTarget bank missing o := by
  cases o with
  | immediate value => rfl
  | register index => rfl
  | pointer index =>
    have hindex := h index List.mem_cons_self
    rw [operandTarget, operandTarget, readRegister, readRegister, hindex]

theorem operandValue_congr (h : ∀ r ∈ operandRegisters bank o, other.read? r = bank.read? r) :
    operandValue other o = operandValue bank o := by
  cases o with
  | immediate value => rfl
  | register index =>
    rw [operandValue, operandValue, readRegister, readRegister, h index List.mem_cons_self]
  | pointer index =>
    have hindex := h index List.mem_cons_self
    rw [operandValue, operandValue, readRegister, readRegister, hindex]
    cases hread : bank.read? index with
    | none => rfl
    | some target =>
      have htarget := h target.toNat (mem_operandRegisters_pointer.mpr (.inr ⟨target, hread, rfl⟩))
      show readRegister other target.toNat = readRegister bank target.toNat
      rw [readRegister, readRegister, htarget]

theorem accumulator_congr (h : ∀ r ∈ accessed bank i, other.read? r = bank.read? r)
    (hhalt : i.opcode ≠ .halt) : other.accumulator = bank.accumulator := by
  rw [Bank.accumulator, Bank.accumulator, h 0 (zero_mem_accessed hhalt)]

/-- **Nothing but the registers accessed decides what an instruction does.** -/
theorem effect_congr (hsize : other.size = bank.size)
    (h : ∀ r ∈ accessed bank i, other.read? r = bank.read? r) :
    effect other address i = effect bank address i := by
  cases i using instruction_cases with
  | halt argument span => rfl
  | jump op argument span hjump =>
    have hhalt : op ≠ .halt := ne_halt_of_isJump hjump
    rw [effect_of_isJump hjump, effect_of_isJump hjump, accumulator_congr h hhalt]
  | store o place span =>
    have hstore : Opcode.store ≠ .halt := by decide
    have hleads : ∀ r ∈ operandRegisters bank o, other.read? r = bank.read? r :=
      fun r hr => h r (List.mem_cons_of_mem 0 hr)
    show storeEffect other (.missingArgument address) o =
      storeEffect bank (.missingArgument address) o
    rw [storeEffect, storeEffect, operandTarget_congr hleads, hsize, accumulator_congr h hstore]
  | computing op o place span hjump hstore hhalt =>
    have hleads : ∀ r ∈ operandRegisters bank o, other.read? r = bank.read? r := fun r hr =>
      h r (by rw [accessed_of_argument hjump hhalt]; exact List.mem_cons_of_mem 0 hr)
    rw [effect_of_computing hjump hstore hhalt, effect_of_computing hjump hstore hhalt,
      computeEffect, computeEffect, operandValue_congr hleads, accumulator_congr h hhalt]
  | missing op argument span hjump hhalt hnone =>
    rw [effect_of_missing hjump hhalt hnone, effect_of_missing hjump hhalt hnone]

end Accessed

/-! ### The machine behind an instruction -/

/-- **An instruction is contained**, given the machine, the events and the reason to stop behind
it. -/
structure Contained (m : Interpreter) (i : Instruction)
    (answer : Interpreter × List Event × Option StopReason) : Prop where
  memory : answer.1.memory = m.memory
  labels : answer.1.labels = m.labels
  size : answer.1.bank.size = m.bank.size
  /-- Every register keeps its name. -/
  names : answer.1.bank.names = m.bank.names
  /-- One register at most changes, and it is known which. -/
  others : ∀ r, written? m.bank i ≠ some r → answer.1.bank.read? r = m.bank.read? r
  /-- The changes are told, and nothing else is told to have changed. -/
  told : ∀ r value, .changed r value ∈ answer.2.1 ↔
    answer.1.bank.read? r = some value ∧ m.bank.read? r ≠ some value
  /-- A register outside the bank is refused. -/
  inside : ∀ r ∈ accessed m.bank i, m.bank.size ≤ r →
    answer.2.2 = some (.fault (.registerOutOfRange r))
  /-- No register decides but those accessed. -/
  depends : ∀ bank : Bank, bank.size = m.bank.size →
    (∀ r ∈ accessed m.bank i, bank.read? r = m.bank.read? r) →
    effect bank m.counter i = effect m.bank m.counter i
  stops : ∀ reason, answer.2.2 = some reason ↔ Stops m.bank m.counter i reason
  /-- An instruction that halts the machine changes the counter only. -/
  kept : answer.2.2 ≠ none → answer.1.bank = m.bank ∧ answer.1.counter = m.counter + 1 ∧
    ∀ r value, .changed r value ∉ answer.2.1

section Contained

variable {m : Interpreter} {i : Instruction}

theorem advance_stops_iff {reason : StopReason} :
    (m.advance i).2.2 = some reason ↔ effect m.bank m.counter i = .halt reason := by
  unfold Interpreter.advance
  split <;> simp_all

/-- A register that is not the one foreseen stays as it is. -/
theorem read?_advance {r : Nat} (hr : written? m.bank i ≠ some r) :
    (m.advance i).1.bank.read? r = m.bank.read? r := by
  unfold Interpreter.advance
  split
  case h_2 register value he =>
    rw [written?_of_effect he] at hr
    rw [Bank.read?_write, if_neg fun h => hr (congrArg some h.1)]
  all_goals rfl

theorem changed_mem_advance (hbank : 0 < m.bank.size) {r : Nat} {value : UInt32} :
    .changed r value ∈ (m.advance i).2.1 ↔
      (m.advance i).1.bank.read? r = some value ∧ m.bank.read? r ≠ some value := by
  obtain ⟨hsame, hevents⟩ | ⟨register, old, new, hread, hdiffers, hwritten, hevents⟩ :=
    Interpreter.advance_cases hbank i
  · rw [hsame, hevents]
    simp
  · rw [hwritten, hevents, Bank.read?_write]
    by_cases hr : register = r
    · subst hr
      rw [if_pos ⟨rfl, lt_size_of_read? hread⟩, hread]
      have hne : ∀ v, new = v → old ≠ v := fun v hv => hv ▸ hdiffers
      simpa [eq_comm] using hne value
    · rw [if_neg fun h => hr h.1]
      simp [Ne.symm hr]

theorem contained_advance (hbank : 0 < m.bank.size) (i : Instruction) :
    Contained m i (m.advance i) := by
  have hsize : (m.advance i).1.bank.size = m.bank.size := Interpreter.size_advance m i
  have hstops : ∀ reason, (m.advance i).2.2 = some reason ↔ Stops m.bank m.counter i reason :=
    fun reason => advance_stops_iff.trans effect_halt_iff
  refine ⟨?_, ?_, hsize, Interpreter.names_advance m i, fun r => read?_advance,
    fun r value => changed_mem_advance hbank,
    fun r hr hout => (hstops _).mpr (.of_accessed hbank hr hout),
    fun other hother h => effect_congr hother h, hstops, fun hstop => ?_⟩
  · unfold Interpreter.advance
    split <;> rfl
  · unfold Interpreter.advance
    split <;> rfl
  · obtain ⟨reason, hreason⟩ := Option.ne_none_iff_exists'.mp hstop
    have hadvance : m.advance i =
        ({ m with counter := m.counter + 1 }, [.stepped m.counter], some reason) := by
      rw [Interpreter.advance, advance_stops_iff.mp hreason]
    rw [hadvance]
    exact ⟨rfl, rfl, fun r value => by simp⟩

/-- The state, the last reason, and the event that the machine has stopped, do not matter. -/
theorem Contained.close {m' : Interpreter} {events : List Event} {stop : Option StopReason}
    (h : Contained m i (m', events, stop)) (state : State) (lastStop : Option StopReason)
    {last : List Event} (hlast : ∀ r value, .changed r value ∉ last) :
    Contained m i ({ m' with state, lastStop }, events ++ last, stop) where
  memory := h.memory
  labels := h.labels
  size := h.size
  names := h.names
  others := h.others
  told r value := by
    rw [List.mem_append, or_iff_left (hlast r value)]
    exact h.told r value
  inside := h.inside
  depends := h.depends
  stops := h.stops
  kept hstop := by
    obtain ⟨hbank, hcounter, hquiet⟩ := h.kept hstop
    refine ⟨hbank, hcounter, fun r value hmem => ?_⟩
    obtain hmem | hmem := List.mem_append.mp hmem
    · exact hquiet r value hmem
    · exact hlast r value hmem

theorem contained_step (hbank : 0 < m.bank.size) (hrun : m.state ≠ .stopped)
    (hi : m.current? = some i) : Contained m i m.step := by
  have h := contained_advance hbank i
  rw [Interpreter.step_of_running hrun hi]
  rcases hm : m.advance i with ⟨m', events, _ | reason⟩
  · rw [hm] at h
    have hclose : Contained m i ({ m' with state := .idle }, events ++ [], none) :=
      h.close .idle m'.lastStop fun _ _ => List.not_mem_nil
    rwa [List.append_nil] at hclose
  · rw [hm] at h
    exact h.close .stopped (some reason) fun r value => by simp

end Contained

/-- **Every instruction is contained**, on every machine that has at least the accumulator, whatever
program it holds: as part of a run, and as a step of a machine that has not stopped. -/
theorem instruction_contained {m : Interpreter} {i : Instruction} (hbank : 0 < m.bank.size)
    (hi : m.current? = some i) :
    Contained m i (m.advance i) ∧ (m.state ≠ .stopped → Contained m i m.step) :=
  ⟨contained_advance hbank i, fun hrun => contained_step hbank hrun hi⟩

/-- A pointer that names a register outside the bank. -/
theorem store_outside_contained :
    let i : Instruction := ⟨.store, some (.operand (.pointer 1) {}), {}⟩
    let m : Interpreter := { bank := ⟨#[⟨"Acc", 7⟩, ⟨"R1", 9⟩]⟩, memory := #[i] }
    0 < m.bank.size ∧ m.current? = some i ∧
      m.step.2.2 = some (.fault (.registerOutOfRange 9)) ∧
      Contained m i (m.advance i) ∧ (m.state ≠ .stopped → Contained m i m.step) :=
  ⟨by decide, by decide, by decide, instruction_contained (by decide) (by decide)⟩

end RegisterMachine.Machine
