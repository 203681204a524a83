import RegisterMachine.Proofs.Machine.Effects
import RegisterMachine.Proofs.Machine.StaticChecks

/-! # Runs on a larger bank

A machine with more registers than a program needs runs it like a smaller one, as long as the
smaller one does not stop at a register outside of its bank. Pointers decide at run time which
registers are touched, but what succeeds on the smaller bank touches registers of that bank only.

* `Bank.Extends`: the same registers, and zeros behind them.
* `effect_of_extends`: an instruction has the same effect on both banks, unless it leaves the
  smaller.
* `Interpreter.extends_step`, `extends_after`: machines in step with each other.
* `larger_bank_runs_alike`: the theorem, also for the checks of the assembler. -/

namespace RegisterMachine.Machine

open RegisterMachine.Assembly

/-- **A larger bank** has the registers of a smaller one, and zeros behind them. -/
structure Bank.Extends (large small : Bank) : Prop where
  size : small.size ≤ large.size
  same : ∀ r, r < small.size → large.read? r = small.read? r
  zero : ∀ r, small.size ≤ r → r < large.size → large.read? r = some 0

theorem extends_zero {n registers : Nat} (h : n ≤ registers) :
    (Bank.zero registers).Extends (Bank.zero n) where
  size := by simpa using h
  same r hr := by
    rw [Bank.size_zero] at hr
    rw [Bank.read?_zero, Bank.read?_zero, if_pos (by omega), if_pos (by omega)]
  zero r _ hr := by
    rw [Bank.size_zero] at hr
    rw [Bank.read?_zero, if_pos (by omega)]

/-- The registers of both banks have the same names. -/
theorem names_zero_getElem? {n registers r : Nat} (h : n ≤ registers) (hr : r ≤ n) :
    (Bank.zero registers).names[r]? = (Bank.zero n).names[r]? := by
  rw [Bank.names_zero, Bank.names_zero]
  cases r with
  | zero => rfl
  | succ k =>
    rw [List.getElem?_cons_succ, List.getElem?_cons_succ, List.getElem?_map, List.getElem?_map,
      List.getElem?_range (by omega), List.getElem?_range (by omega)]

/-! ### One instruction -/

section Effect

variable {large small : Bank} {r : Nat} {value : UInt32}

namespace Bank.Extends

theorem read? (h : large.Extends small) (hr : small.read? r = some value) :
    large.read? r = some value := by
  rw [h.same r (lt_size_of_read? hr), hr]

/-- The accumulators are equal, even of banks without any register. -/
theorem accumulator (h : large.Extends small) : large.accumulator = small.accumulator := by
  unfold Bank.accumulator
  by_cases hsmall : 0 < small.size
  · rw [h.same 0 hsmall]
  · have hnone : small.read? 0 = none := read?_eq_none (Nat.le_of_not_lt hsmall)
    rw [hnone]
    by_cases hlarge : 0 < large.size
    · rw [h.zero 0 (Nat.le_of_not_lt hsmall) hlarge]
      rfl
    · rw [read?_eq_none (Nat.le_of_not_lt hlarge)]

theorem write (h : large.Extends small) (hr : r < small.size) (value : UInt32) :
    (large.write r value).Extends (small.write r value) where
  size := by simpa using h.size
  same other hother := by
    rw [Bank.size_write] at hother
    have hlarge : r < large.size := Nat.lt_of_lt_of_le hr h.size
    simp only [Bank.read?_write, hr, hlarge, and_true, h.same other hother]
  zero other hsmall hlarge := by
    rw [Bank.size_write] at hsmall hlarge
    rw [Bank.read?_write, if_neg (by omega), h.zero other hsmall hlarge]

end Bank.Extends

/-- The fault of a register outside the bank. -/
def Fault.isOutside : Fault → Bool
  | .registerOutOfRange _ => true
  | _ => false

/-- The computation gives the same on the larger bank, unless it leaves the smaller one. -/
def Agrees {β : Type} (large small : Except Fault β) : Prop :=
  large = small ∨ ∃ fault, small = .error fault ∧ fault.isOutside = true

theorem readRegister_agrees (h : large.Extends small) (r : Nat) :
    Agrees (readRegister large r) (readRegister small r) := by
  cases hr : small.read? r with
  | none => exact .inr ⟨.registerOutOfRange r, by rw [readRegister, hr], rfl⟩
  | some value => exact .inl (by rw [readRegister, readRegister, hr, h.read? hr])

/-- A register is read, and what it holds is used. -/
theorem pointer_agrees {β : Type} (h : large.Extends small) (r : Nat)
    {atLarge atSmall : UInt32 → Except Fault β} (hat : ∀ v, Agrees (atLarge v) (atSmall v)) :
    Agrees
      (match readRegister large r with
        | .ok target => atLarge target
        | .error fault => .error fault)
      (match readRegister small r with
        | .ok target => atSmall target
        | .error fault => .error fault) := by
  obtain heq | ⟨fault, herror, hout⟩ := readRegister_agrees h r
  · rw [heq]
    cases readRegister small r with
    | ok target => exact hat target
    | error fault => exact .inl rfl
  · rw [herror]
    exact .inr ⟨fault, rfl, hout⟩

theorem operandValue_agrees (h : large.Extends small) (o : Operand) :
    Agrees (operandValue large o) (operandValue small o) := by
  cases o with
  | immediate value => exact .inl rfl
  | register r => exact readRegister_agrees h r
  | pointer r => exact pointer_agrees h r fun target => readRegister_agrees h target.toNat

theorem operandTarget_agrees (h : large.Extends small) (missing : Fault) (o : Operand) :
    Agrees (operandTarget large missing o) (operandTarget small missing o) := by
  cases o with
  | immediate value => exact .inl rfl
  | register r => exact .inl rfl
  | pointer r => exact pointer_agrees h r fun target => .inl rfl

/-- The effect leaves the bank. -/
def Effect.isOutside : Effect → Bool
  | .halt (.fault fault) => fault.isOutside
  | _ => false

theorem computeEffect_of_extends (h : large.Extends small) (op : Opcode) {o : Operand}
    (hin : (computeEffect small op o).isOutside = false) :
    computeEffect large op o = computeEffect small op o := by
  obtain heq | ⟨fault, herror, hout⟩ := operandValue_agrees h o
  · rw [computeEffect, computeEffect, heq, h.accumulator]
  · rw [computeEffect, herror] at hin
    cases hout.symm.trans hin

theorem storeEffect_of_extends (h : large.Extends small) {missing : Fault} {o : Operand}
    (hin : (storeEffect small missing o).isOutside = false) :
    storeEffect large missing o = storeEffect small missing o := by
  obtain heq | ⟨fault, herror, hout⟩ := operandTarget_agrees h missing o
  · unfold storeEffect at hin ⊢
    rw [heq, h.accumulator]
    cases htarget : operandTarget small missing o with
    | error fault => rfl
    | ok target =>
      rw [htarget] at hin
      dsimp only at hin ⊢
      by_cases hlt : target < small.size
      · rw [if_pos hlt, if_pos (Nat.lt_of_lt_of_le hlt h.size)]
      · rw [if_neg hlt] at hin
        cases hin
  · rw [storeEffect, herror] at hin
    cases hout.symm.trans hin

/-- **An instruction has the same effect on the larger bank**, unless it leaves the smaller one. -/
theorem effect_of_extends (h : large.Extends small) {address : Nat} {i : Instruction}
    (hin : (effect small address i).isOutside = false) :
    effect large address i = effect small address i := by
  obtain ⟨op, o, heffect⟩ | ⟨missing, o, heffect⟩ | ⟨move, -, heffect⟩ := effect_kinds address i
  · rw [heffect] at hin
    rw [heffect, heffect, computeEffect_of_extends h op hin]
  · rw [heffect] at hin
    rw [heffect, heffect, storeEffect_of_extends h hin]
  · rw [heffect, heffect, h.accumulator]

end Effect

/-! ### Runs -/

namespace Interpreter

/-- **Machines in step with each other**: the same program at the same point, on banks of which one
extends the other. -/
structure Extends (large small : Interpreter) : Prop where
  bank : large.bank.Extends small.bank
  nonempty : 0 < small.bank.size
  memory : large.memory = small.memory
  counter : large.counter = small.counter
  state : large.state = small.state
  lastStop : large.lastStop = small.lastStop

/-- The machine has stopped at a register outside of its bank. -/
def leftBank (m : Interpreter) : Prop :=
  m.state = .stopped ∧ ∃ register, m.lastStop = some (.fault (.registerOutOfRange register))

variable {large small : Interpreter}

theorem Extends.current (h : large.Extends small) : large.current? = small.current? := by
  rw [current?, current?, h.memory, h.counter]

theorem Extends.changes (h : large.Extends small) {register : Nat}
    (hregister : register < small.bank.size) (value : UInt32) :
    Interpreter.changes large.bank register value =
      Interpreter.changes small.bank register value := by
  rw [Interpreter.changes, Interpreter.changes, h.bank.same register hregister]

/-- An instruction keeps machines in step, unless it leaves the smaller bank. -/
theorem Extends.advance (h : large.Extends small) (i : Instruction)
    (hin : (effect small.bank small.counter i).isOutside = false) :
    (large.advance i).1.Extends (small.advance i).1 ∧
      (large.advance i).2 = (small.advance i).2 := by
  have heffect := effect_of_extends h.bank hin
  unfold Interpreter.advance
  rw [h.counter, heffect]
  cases he : effect small.bank small.counter i with
  | next | jump | halt => exact ⟨⟨h.bank, h.nonempty, h.memory, rfl, h.state, h.lastStop⟩, rfl⟩
  | write register value =>
    have hregister := lt_size_of_effect h.nonempty he
    refine ⟨⟨h.bank.write hregister value, ?_, h.memory, rfl, h.state, h.lastStop⟩, ?_⟩
    · rw [Bank.size_write]
      exact h.nonempty
    · dsimp only
      rw [h.changes hregister]

/-- **A step keeps machines in step**, with the same events and the same answer, unless the smaller
one leaves its bank. -/
theorem extends_step (h : large.Extends small) (hin : ¬ small.step.1.leftBank) :
    large.step.1.Extends small.step.1 ∧ large.step.2 = small.step.2 := by
  by_cases hs : small.state = .stopped
  · rw [step_of_stopped hs, step_of_stopped (h.state.trans hs)]
    exact ⟨h, congrArg (([] : List Event), ·) h.lastStop⟩
  have hl : large.state ≠ .stopped := fun hl => hs (h.state.symm.trans hl)
  cases hi : small.current? with
  | none =>
    rw [step_of_end hs hi, step_of_end hl (h.current.trans hi)]
    exact ⟨⟨h.bank, h.nonempty, h.memory, h.counter, rfl, rfl⟩, rfl⟩
  | some i =>
    have heffect : (effect small.bank small.counter i).isOutside = false := by
      rw [← Bool.not_eq_true]
      intro hout
      cases he : effect small.bank small.counter i with
      | next | write | jump => rw [he] at hout; cases hout
      | halt reason =>
        rw [he] at hout
        refine hin ?_
        rw [step_of_halt hs hi he]
        cases reason with
        | fault fault =>
          cases fault with
          | registerOutOfRange register => exact ⟨rfl, register, rfl⟩
          | unresolvedLabel | missingArgument => cases hout
        | endOfProgram | halted | divisionByZero | cancelled => cases hout
    obtain ⟨hextends, hsame⟩ := h.advance i heffect
    rw [step_of_running hs hi, step_of_running hl (h.current.trans hi)]
    rcases hsmall : small.advance i with ⟨small', events, answer⟩
    rcases hlarge : large.advance i with ⟨large', events', answer'⟩
    rw [hsmall, hlarge] at hextends hsame
    cases hsame
    cases answer with
    | some reason =>
      exact ⟨⟨hextends.bank, hextends.nonempty, hextends.memory, hextends.counter, rfl, rfl⟩, rfl⟩
    | none =>
      exact ⟨⟨hextends.bank, hextends.nonempty, hextends.memory, hextends.counter, rfl,
        hextends.lastStop⟩, rfl⟩

/-- A machine that has left its bank has stopped for good. -/
theorem leftBank_step (h : small.leftBank) : small.step.1.leftBank := by
  rw [step_of_stopped h.1]
  exact h

/-- **Machines stay in step** as long as the smaller one does not leave its bank. -/
theorem extends_after (h : large.Extends small) :
    ∀ {k : Nat}, ¬ (small.after k).leftBank →
      (large.after k).Extends (small.after k) ∧ large.eventsOf k = small.eventsOf k
  | 0, _ => ⟨h, rfl⟩
  | k + 1, hin => by
    obtain ⟨hextends, hevents⟩ := extends_after h fun hleft => hin (leftBank_step hleft)
    obtain ⟨hstep, hsame⟩ := extends_step hextends hin
    refine ⟨hstep, ?_⟩
    rw [eventsOf_succ, eventsOf_succ, hevents, hsame]

theorem extends_load {p : Program} {n registers : Nat} {fresh fresh' : Interpreter}
    (hn : n ≤ registers) (hsmall : fresh.load p n = .ok small)
    (hlarge : fresh'.load p registers = .ok large) : large.Extends small := by
  obtain ⟨_, -, rfl⟩ := Success.map_ok hsmall
  obtain ⟨_, -, rfl⟩ := Success.map_ok hlarge
  exact ⟨extends_zero hn, by simp, rfl, rfl, rfl, rfl⟩

end Interpreter

/-! ### The theorem -/

/-- **Machines with `n` and with so many registers show the same**: where they are, whether and why
they have stopped, and the registers that both have. The others are zero. -/
structure Alike (n registers : Nat) (small large : Interpreter) : Prop where
  counter : large.counter = small.counter
  state : large.state = small.state
  lastStop : large.lastStop = small.lastStop
  same : ∀ r, r ≤ n → large.bank.read? r = small.bank.read? r
  names : ∀ r, r ≤ n → large.bank.names[r]? = small.bank.names[r]?
  zero : ∀ r, n < r → r ≤ registers → large.bank.read? r = some 0

theorem alike_of_extends {n registers : Nat} {small large : Interpreter} (h : large.Extends small)
    (hsmall : small.bank.size = n + 1) (hlarge : large.bank.size = registers + 1)
    (names : ∀ r, r ≤ n → large.bank.names[r]? = small.bank.names[r]?) :
    Alike n registers small large where
  counter := h.counter
  state := h.state
  lastStop := h.lastStop
  same r hr := h.bank.same r (by omega)
  names := names
  zero r hn hr := h.bank.zero r (by omega) (by omega)

/-- The checks of a program for a bank hold for a larger one. -/
theorem assemble_mono {source : String} {n registers : Nat} {p : Program} (hn : n ≤ registers)
    (hmax : registers ≤ maxRegisters) (h : assemble source n = .ok p) :
    assemble source registers = .ok p := by
  obtain ⟨-, tokens, parsed, htokens, hparsed, hresolved, hbounds⟩ := assemble_stages h
  refine assemble_of_stages hmax htokens hparsed hresolved (checkBounds_ok_iff.mpr ?_)
  intro i hi a ha r hr
  have := checkBounds_ok_iff.mp hbounds i hi a ha r hr
  omega

/-- **A larger bank does not change a run.** Any program is loaded into machines with `n` and with
more registers. As long as the first has not stopped at a register outside of its bank, both show
the same behind any number of steps, and have had the same events. A source that is assembled for
`n` registers is assembled to the same program for more. -/
theorem larger_bank_runs_alike {n registers : Nat} (hn : n ≤ registers)
    (hmax : registers ≤ maxRegisters) :
    (∀ (p : Program) (fresh fresh' : Interpreter),
      ∃ small large, fresh.load p n = .ok small ∧ fresh'.load p registers = .ok large ∧
        ∀ k, (∀ r, (small.after k).lastStop ≠ some (.fault (.registerOutOfRange r))) →
          Alike n registers (small.after k) (large.after k) ∧
            large.eventsOf k = small.eventsOf k) ∧
    ∀ source p, assemble source n = .ok p → assemble source registers = .ok p := by
  refine ⟨fun p fresh fresh' => ?_, fun source p => assemble_mono hn hmax⟩
  obtain ⟨small, hsmall⟩ := load_ok (Nat.le_trans hn hmax) p fresh
  obtain ⟨large, hlarge⟩ := load_ok hmax p fresh'
  refine ⟨small, large, hsmall, hlarge, fun k hin => ?_⟩
  obtain ⟨hextends, hevents⟩ := Interpreter.extends_after
    (Interpreter.extends_load hn hsmall hlarge) fun ⟨_, r, hr⟩ => hin r hr
  have hsize : ∀ {m : Interpreter} {count : Nat} {fresh : Interpreter},
      fresh.load p count = .ok m → (m.after k).bank.size = count + 1 := by
    intro m count fresh hload
    obtain ⟨_, -, rfl⟩ := Success.map_ok hload
    rw [Interpreter.size_after, Bank.size_zero]
  have hnames : ∀ {m : Interpreter} {count : Nat} {fresh : Interpreter},
      fresh.load p count = .ok m → (m.after k).bank.names = (Bank.zero count).names := by
    intro m count fresh hload
    obtain ⟨_, -, rfl⟩ := Success.map_ok hload
    exact Interpreter.names_after _ _
  refine ⟨alike_of_extends hextends (hsize hsmall) (hsize hlarge) fun r hr => ?_, hevents⟩
  rw [hnames hsmall, hnames hlarge]
  exact names_zero_getElem? hn hr

/-- A pointer to the third register. -/
def beyond : Program where
  instructions := #[⟨.load, some (.operand (.immediate 3) {}), {}⟩,
    ⟨.store, some (.operand (.register 1) {}), {}⟩, ⟨.load, some (.operand (.pointer 1) {}), {}⟩]

/-- With two registers this program stops in its third step, with four it does not. Behind two steps
the machines are alike. -/
theorem beyond_runs_alike : 2 ≤ 4 ∧ 4 ≤ maxRegisters ∧ ∃ small large,
    Interpreter.load {} beyond 2 = .ok small ∧ Interpreter.load {} beyond 4 = .ok large ∧
    (Alike 2 4 (small.after 2) (large.after 2) ∧ large.eventsOf 2 = small.eventsOf 2) ∧
    (small.after 3).lastStop = some (.fault (.registerOutOfRange 3)) ∧
    (large.after 3).lastStop = none := by
  obtain ⟨small, large, hsmall, hlarge, halike⟩ :=
    (larger_bank_runs_alike (show 2 ≤ 4 by decide) (show 4 ≤ maxRegisters by decide)).1 beyond {} {}
  have hrunning : (small.after 2).lastStop = none := by
    cases hsmall
    cbv
  have hwithin : ∀ r, (small.after 2).lastStop ≠ some (.fault (.registerOutOfRange r)) := by
    simp [hrunning]
  refine ⟨by decide, by decide, small, large, hsmall, hlarge, halike 2 hwithin, ?_, ?_⟩
  · cases hsmall
    cbv
  · cases hlarge
    cbv

end RegisterMachine.Machine
