import RegisterMachine.Machine.Effect
import RegisterMachine.Machine.Ticker

/-! # The interpreter

A machine holds a bank, a memory of instructions and a program counter. It is stepped one
instruction at a time, or run to its end. It knows its state, and apart from it why it stopped last.

* `step`: one instruction, for a host that single-steps.
* `executeWith`: instructions until one ends the run, the memory ends, or a tick does not come.
* Both answer with the events that happened, and with the reason of the stop.
* `executeUntil`, `execute`: runs that the host may cancel at some instant, on any clock and on one
  on which all instructions take the same time. -/

namespace RegisterMachine.Machine

open RegisterMachine.Assembly

inductive State
  | idle
  | running
  | stopped
deriving DecidableEq, Repr

structure Interpreter where
  bank : Bank := Bank.zero 5
  memory : Array Instruction := #[]
  labels : Array Label := #[]
  counter : Nat := 0
  state : State := .idle
  pacing : Pacing := .clocked Pacing.nanosPerSecond
  /-- Why the machine stopped last, since its program was loaded. -/
  lastStop : Option StopReason := none

/-- Why a run has no result. -/
inductive RunFailure
  /-- The run is not over behind the instructions that it may make. -/
  | unfinished
  /-- A tick that the run waits for is due behind the last instant. -/
  | panicked
deriving DecidableEq, Repr

namespace Interpreter

/-- An idle interpreter with an empty memory. -/
def ofSettings (s : Settings) : Except SettingsFailure Interpreter :=
  s.pacing.map fun pacing => { bank := Bank.zero s.registers, pacing }

/-- **Load a program.** The bank is new and zero, and the counter is at the start. -/
def load (m : Interpreter) (program : Program) (registers : Nat) :
    Except SettingsError Interpreter :=
  (checkCount registers).map fun () =>
    { m with
      bank := Bank.zero registers
      memory := program.instructions
      labels := program.labels
      counter := 0
      state := .idle
      lastStop := none }

/-- The instruction that comes next, unless the counter is behind the memory. -/
def current? (m : Interpreter) : Option Instruction := m.memory[m.counter]?

/-- The event of a register that is written, if its value changes. -/
def changes (bank : Bank) (register : Nat) (value : UInt32) : List Event :=
  if bank.read? register = some value then [] else [.changed register value]

/-- The machine after one instruction, with the events and the reason to stop. -/
def advance (m : Interpreter) (i : Instruction) : Interpreter × List Event × Option StopReason :=
  match effect m.bank m.counter i with
  | .next => ({ m with counter := m.counter + 1 }, [.stepped m.counter], none)
  | .write register value =>
    let events := .stepped m.counter :: changes m.bank register value
    ({ m with bank := m.bank.write register value, counter := m.counter + 1 }, events, none)
  | .jump address => ({ m with counter := address }, [.stepped m.counter], none)
  | .halt reason =>
    ({ m with counter := m.counter + 1 }, [.stepped m.counter], some reason)

/-- The machine stopped. -/
def stop (m : Interpreter) (reason : StopReason) : Interpreter :=
  { m with state := .stopped, lastStop := some reason }

/-- **One step.** A stopped machine stays as it is and answers its last reason again. -/
def step (m : Interpreter) : Interpreter × List Event × Option StopReason :=
  match m.state with
  | .stopped => (m, [], m.lastStop)
  | _ =>
    match m.current? with
    | none => (m.stop .endOfProgram, [.stopped .endOfProgram], some .endOfProgram)
    | some i =>
      match { m with state := .running }.advance i with
      | (m, events, some reason) => (m.stop reason, events ++ [.stopped reason], some reason)
      | (m, events, none) => ({ m with state := .idle }, events, none)

/-- Steps until one gives a reason to stop, `limit` at most; with the number made. -/
def stepUntilStop : (limit : Nat) → (made : Nat) → Interpreter → Nat × Interpreter
  | 0, made, m => (made, m)
  | limit + 1, made, m =>
    match m.step with
    | (m, _, some _) => (made + 1, m)
    | (m, _, none) => stepUntilStop limit (made + 1) m

/-- A run whose last instruction is made: the ticks that it waited for, the machine, the log, and
the reason to stop. -/
structure Halted (α : Type) where
  waited : Nat
  machine : Interpreter
  log : α
  reason : StopReason

/-- The body of a run that has waited for so many ticks: at most `fuel` more instructions, before
each of which a tick is waited for. -/
def executeFrom {α : Type} (publish : α → Event → α) (ticks : Nat → Tick) :
    (fuel : Nat) → (waited : Nat) → α → Interpreter → Except RunFailure (Halted α)
  | 0, _, _, _ => .error .unfinished
  | fuel + 1, waited, log, m =>
    match m.current? with
    | none => .ok ⟨waited, m, log, .endOfProgram⟩
    | some i =>
      match ticks waited with
      | .overflows => .error .panicked
      | .cancelled => .ok ⟨waited + 1, m, log, .cancelled⟩
      | .comes =>
        match m.advance i with
        | (m, events, some reason) => .ok ⟨waited + 1, m, events.foldl publish log, reason⟩
        | (m, events, none) =>
          executeFrom publish ticks fuel (waited + 1) (events.foldl publish log) m

/-- A clocked run that is not cancelled waits for one more tick before it reports its end, so that
its last state is seen for a whole period. -/
def lingers (m : Interpreter) (reason : StopReason) : Bool :=
  reason ≠ .cancelled && m.pacing ≠ .realTime

/-- The end of a run, published. -/
def finish {α : Type} (publish : α → Event → α) (ticks : Nat → Tick) (h : Halted α) :
    Except RunFailure (Interpreter × α × StopReason) :=
  if h.machine.lingers h.reason ∧ ticks h.waited = .overflows then .error .panicked
  else .ok (h.machine.stop h.reason, publish h.log (.stopped h.reason), h.reason)

/-- **Run to the end**, or until a tick does not come. Every event is published to the log. A run
that is not over behind `fuel` instructions has no result, and neither has one that panics. -/
def executeWith {α : Type} (publish : α → Event → α) (ticks : Nat → Tick) (fuel : Nat) (log : α)
    (m : Interpreter) : Except RunFailure (Interpreter × α × StopReason) :=
  executeFrom publish ticks (fuel + 1) 0 (publish log .started) { m with state := .running } >>=
    finish publish ticks

/-- **A run that the host may cancel**, at the pace of the machine. -/
def executeUntil {α : Type} (publish : α → Event → α) (clock : Clock) (cancellation : Cancellation)
    (fuel : Nat) (log : α) (m : Interpreter) : Except RunFailure (Interpreter × α × StopReason) :=
  m.executeWith publish (m.pacing.ticks clock cancellation) fuel log

/-- A run that begins at instant zero, and in which one instruction after the other takes a
period. -/
def execute {α : Type} (publish : α → Event → α) (cancellation : Cancellation) (fuel : Nat)
    (log : α) (m : Interpreter) : Except RunFailure (Interpreter × α × StopReason) :=
  m.executeWith publish (m.pacing.paced cancellation) fuel log

end Interpreter

end RegisterMachine.Machine
