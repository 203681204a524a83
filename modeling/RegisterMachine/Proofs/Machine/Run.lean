import RegisterMachine.Machine.Interpreter
import RegisterMachine.Proofs.Success

/-! # Runs of a machine, step by step

A host steps a machine as often as it likes. `after m k` is the machine behind `k` steps, and
`eventsOf m k` are their events; a machine runs as long as its state is not `stopped`.

* `step_cases`: all that one step can do; `running_step_cases`: without stopping.
* `after_stopped`: a stopped machine stays as it is.
* `invariant_after`: what every step keeps holds behind any number of steps.
* `Knows`: a machine has a last reason exactly if it has stopped, as every machine that was
  loaded. -/

namespace RegisterMachine.Machine.Interpreter

open RegisterMachine.Assembly

/-- **The machine behind so many steps.** -/
def after (m : Interpreter) : Nat → Interpreter
  | 0 => m
  | k + 1 => (m.after k).step.1

theorem after_succ (m : Interpreter) (k : Nat) : m.after (k + 1) = (m.after k).step.1 := rfl

theorem after_add (m : Interpreter) (j k : Nat) : m.after (j + k) = (m.after j).after k := by
  induction k with
  | zero => rfl
  | succ k ih => rw [← Nat.add_assoc, after_succ, ih, after_succ]

theorem after_one_add (m : Interpreter) (k : Nat) : m.after (1 + k) = m.step.1.after k :=
  after_add m 1 k

/-- **The events of so many steps**, in order. -/
def eventsOf (m : Interpreter) : Nat → List Event
  | 0 => []
  | k + 1 => m.eventsOf k ++ (m.after k).step.2.1

theorem eventsOf_succ (m : Interpreter) (k : Nat) :
    m.eventsOf (k + 1) = m.eventsOf k ++ (m.after k).step.2.1 := rfl

theorem eventsOf_one_add (m : Interpreter) (k : Nat) :
    m.eventsOf (1 + k) = m.step.2.1 ++ m.step.1.eventsOf k := by
  induction k with
  | zero => exact (List.append_nil _).symm
  | succ k ih =>
    rw [← Nat.add_assoc, eventsOf_succ, ih, after_one_add, eventsOf_succ, List.append_assoc]

/-! ### One step -/

section Step

variable {m : Interpreter} {i : Instruction}

/-- The state of a machine does not matter to its instructions, and they do not change it. -/
theorem advance_state (m : Interpreter) (state : State) (i : Instruction) :
    advance { m with state } i =
      ({ (m.advance i).1 with state }, (m.advance i).2.1, (m.advance i).2.2) := by
  have heffect : effect (bank { m with state }) (counter { m with state }) i =
      effect m.bank m.counter i := rfl
  unfold advance
  rw [heffect]
  cases effect m.bank m.counter i <;> rfl

theorem stop_state (m : Interpreter) (state : State) (reason : StopReason) :
    stop { m with state } reason = m.stop reason := rfl

theorem step_of_stopped (h : m.state = .stopped) : m.step = (m, [], m.lastStop) := by
  unfold step
  rw [h]

/-- A machine that has not stopped goes by its memory. -/
theorem step_of_not_stopped (h : m.state ≠ .stopped) :
    m.step =
      match m.current? with
      | none => (m.stop .endOfProgram, [.stopped .endOfProgram], some .endOfProgram)
      | some i =>
        match advance { m with state := .running } i with
        | (m, events, some reason) => (m.stop reason, events ++ [.stopped reason], some reason)
        | (m, events, none) => ({ m with state := .idle }, events, none) := by
  unfold step
  split
  · contradiction
  · rfl

/-- A running machine goes by the instruction that comes next. -/
theorem step_of_running (h : m.state ≠ .stopped) (hi : m.current? = some i) :
    m.step =
      match m.advance i with
      | (m, events, some reason) => (m.stop reason, events ++ [.stopped reason], some reason)
      | (m, events, none) => ({ m with state := .idle }, events, none) := by
  rw [step_of_not_stopped h, hi]
  dsimp only
  rw [advance_state]
  rcases m.advance i with ⟨m', events, _ | reason⟩ <;> rfl

theorem step_of_end (h : m.state ≠ .stopped) (hi : m.current? = none) :
    m.step = (m.stop .endOfProgram, [.stopped .endOfProgram], some .endOfProgram) := by
  rw [step_of_not_stopped h, hi]

theorem step_of_next (h : m.state ≠ .stopped) (hi : m.current? = some i)
    (he : effect m.bank m.counter i = .next) :
    m.step.1 = { m with counter := m.counter + 1, state := .idle } := by
  rw [step_of_running h hi]
  simp only [advance, he]

theorem step_of_write {register : Nat} {value : UInt32} (h : m.state ≠ .stopped)
    (hi : m.current? = some i) (he : effect m.bank m.counter i = .write register value) :
    m.step.1 =
      { m with
        bank := m.bank.write register value
        counter := m.counter + 1
        state := .idle } := by
  rw [step_of_running h hi]
  simp only [advance, he]

theorem step_of_jump {address : Nat} (h : m.state ≠ .stopped) (hi : m.current? = some i)
    (he : effect m.bank m.counter i = .jump address) :
    m.step.1 = { m with counter := address, state := .idle } := by
  rw [step_of_running h hi]
  simp only [advance, he]

theorem step_of_halt {reason : StopReason} (h : m.state ≠ .stopped) (hi : m.current? = some i)
    (he : effect m.bank m.counter i = .halt reason) :
    m.step.1 = stop { m with counter := m.counter + 1 } reason := by
  rw [step_of_running h hi]
  simp only [advance, he]

end Step

/-- **What one step can do**: nothing, if the machine has stopped; stop, if the memory has ended; or
what the next instruction says. -/
theorem step_cases (m : Interpreter) :
    (m.state = .stopped ∧ m.step.1 = m) ∨
    (m.state ≠ .stopped ∧ m.current? = none ∧ m.step.1 = m.stop .endOfProgram) ∨
    ∃ i, m.state ≠ .stopped ∧ m.current? = some i ∧
      ((effect m.bank m.counter i = .next ∧
          m.step.1 = { m with counter := m.counter + 1, state := .idle }) ∨
        (∃ register value, effect m.bank m.counter i = .write register value ∧
          m.step.1 = { m with
            bank := m.bank.write register value, counter := m.counter + 1, state := .idle }) ∨
        (∃ address, effect m.bank m.counter i = .jump address ∧
          m.step.1 = { m with counter := address, state := .idle }) ∨
        ∃ reason, effect m.bank m.counter i = .halt reason ∧
          m.step.1 = stop { m with counter := m.counter + 1 } reason) := by
  by_cases hs : m.state = .stopped
  · exact .inl ⟨hs, by rw [step_of_stopped hs]⟩
  cases hi : m.current? with
  | none => exact .inr (.inl ⟨hs, rfl, by rw [step_of_end hs hi]⟩)
  | some i =>
    refine .inr (.inr ⟨i, hs, rfl, ?_⟩)
    cases he : effect m.bank m.counter i with
    | next => exact .inl ⟨rfl, step_of_next hs hi he⟩
    | write register value => exact .inr (.inl ⟨register, value, rfl, step_of_write hs hi he⟩)
    | jump address => exact .inr (.inr (.inl ⟨address, rfl, step_of_jump hs hi he⟩))
    | halt reason => exact .inr (.inr (.inr ⟨reason, rfl, step_of_halt hs hi he⟩))

/-- **What a step did** behind which the machine still runs: it executed an instruction that does
not halt. -/
theorem running_step_cases {m : Interpreter} (hrun : m.step.1.state ≠ .stopped) :
    ∃ i, m.state ≠ .stopped ∧ m.current? = some i ∧
      ((effect m.bank m.counter i = .next ∧
          m.step.1 = { m with counter := m.counter + 1, state := .idle }) ∨
        (∃ register value, effect m.bank m.counter i = .write register value ∧
          m.step.1 = { m with
            bank := m.bank.write register value, counter := m.counter + 1, state := .idle }) ∨
        ∃ address, effect m.bank m.counter i = .jump address ∧
          m.step.1 = { m with counter := address, state := .idle }) := by
  obtain ⟨hs, hstep⟩ | ⟨-, -, hstep⟩ | ⟨i, hs, hi, hstep⟩ := m.step_cases
  · rw [hstep] at hrun
    contradiction
  · rw [hstep] at hrun
    exact absurd rfl hrun
  obtain hnext | hwrite | hjump | ⟨reason, -, hstep⟩ := hstep
  · exact ⟨i, hs, hi, .inl hnext⟩
  · exact ⟨i, hs, hi, .inr (.inl hwrite)⟩
  · exact ⟨i, hs, hi, .inr (.inr hjump)⟩
  · rw [hstep] at hrun
    exact absurd rfl hrun

theorem size_step (m : Interpreter) : m.step.1.bank.size = m.bank.size := by
  obtain ⟨-, hstep⟩ | ⟨-, -, hstep⟩ | ⟨i, -, -, hstep⟩ := m.step_cases
  · rw [hstep]
  · rw [hstep]
    rfl
  obtain ⟨-, hstep⟩ | ⟨register, value, -, hstep⟩ | ⟨address, -, hstep⟩ | ⟨reason, -, hstep⟩ :=
    hstep
  · rw [hstep]
  · rw [hstep, Bank.size_write]
  · rw [hstep]
  · rw [hstep]
    rfl

/-- A step keeps the names of the registers. -/
theorem names_step (m : Interpreter) : m.step.1.bank.names = m.bank.names := by
  obtain ⟨-, hstep⟩ | ⟨-, -, hstep⟩ | ⟨i, -, -, hstep⟩ := m.step_cases
  · rw [hstep]
  · rw [hstep]
    rfl
  obtain ⟨-, hstep⟩ | ⟨register, value, -, hstep⟩ | ⟨address, -, hstep⟩ | ⟨reason, -, hstep⟩ :=
    hstep
  · rw [hstep]
  · rw [hstep, Bank.names_write]
  · rw [hstep]
  · rw [hstep]
    rfl

/-! ### Many steps -/

theorem after_stopped {m : Interpreter} (h : m.state = .stopped) (k : Nat) : m.after k = m := by
  induction k with
  | zero => rfl
  | succ k ih => rw [after_succ, ih, step_of_stopped h]

/-- A machine that runs behind so many steps has been running all the time. -/
theorem running_of_after {m : Interpreter} {j k : Nat} (h : (m.after (j + k)).state ≠ .stopped) :
    (m.after j).state ≠ .stopped := by
  intro hs
  rw [after_add, after_stopped hs] at h
  exact h hs

/-- **What every step keeps holds behind any number of steps.** -/
theorem invariant_after {Inv : Interpreter → Prop} (step : ∀ m, Inv m → Inv m.step.1)
    {m : Interpreter} (h : Inv m) (k : Nat) : Inv (m.after k) := by
  induction k with
  | zero => exact h
  | succ k ih => exact step _ ih

/-- Every machine keeps its bank. -/
theorem size_after (m : Interpreter) (k : Nat) : (m.after k).bank.size = m.bank.size :=
  have hstep : ∀ m' : Interpreter, m'.bank.size = m.bank.size → m'.step.1.bank.size = m.bank.size :=
    fun m' hm' => (size_step m').trans hm'
  invariant_after hstep rfl k

theorem names_after (m : Interpreter) (k : Nat) : (m.after k).bank.names = m.bank.names :=
  have hstep : ∀ m' : Interpreter,
      m'.bank.names = m.bank.names → m'.step.1.bank.names = m.bank.names :=
    fun m' hm' => (names_step m').trans hm'
  invariant_after hstep rfl k

/-! ### The last reason to stop -/

/-- **A machine knows why it has stopped**, and has a last reason only then. Its state and its last
reason are set apart from each other. -/
def Knows (m : Interpreter) : Prop := m.state = .stopped ↔ m.lastStop ≠ none

section Knows

variable {m : Interpreter}

theorem Knows.running_iff (h : m.Knows) : m.lastStop = none ↔ m.state ≠ .stopped :=
  (not_iff_comm.mp h.symm).symm

theorem knows_stop (m : Interpreter) (reason : StopReason) : (m.stop reason).Knows :=
  ⟨fun _ => nofun, fun _ => rfl⟩

/-- A machine that goes on has no last reason yet. -/
theorem Knows.going (h : m.Knows) (hs : m.state ≠ .stopped) {m' : Interpreter}
    (hidle : m'.state = .idle) (hlast : m'.lastStop = m.lastStop) : m'.Knows := by
  rw [Knows, hidle, hlast, h.running_iff.mpr hs]
  exact ⟨nofun, fun hne => absurd rfl hne⟩

theorem knows_load {fresh : Interpreter} {program : Program} {registers : Nat}
    (h : fresh.load program registers = .ok m) : m.Knows := by
  obtain ⟨_, -, rfl⟩ := Success.map_ok h
  exact ⟨nofun, fun hne => absurd rfl hne⟩

/-- **A step keeps what a machine knows.** -/
theorem Knows.step (h : m.Knows) : m.step.1.Knows := by
  obtain ⟨-, hstep⟩ | ⟨-, -, hstep⟩ | ⟨i, hs, -, hstep⟩ := m.step_cases
  · rwa [hstep]
  · rw [hstep]
    exact knows_stop _ _
  obtain ⟨-, hstep⟩ | ⟨_, _, -, hstep⟩ | ⟨_, -, hstep⟩ | ⟨_, -, hstep⟩ := hstep
  · exact h.going hs (by rw [hstep]) (by rw [hstep])
  · exact h.going hs (by rw [hstep]) (by rw [hstep])
  · exact h.going hs (by rw [hstep]) (by rw [hstep])
  · rw [hstep]
    exact knows_stop _ _

theorem Knows.after (h : m.Knows) (k : Nat) : (m.after k).Knows :=
  invariant_after (fun _ => Knows.step) h k

end Knows

end RegisterMachine.Machine.Interpreter
