import RegisterMachine.Proofs.Machine.Watching

/-! # Machines behind any history

A host makes machines, with settings or without, sets their pace, loads programs, steps and runs
them, and lets observers come and go. Some of its requests are refused. Whatever it has done, its
machine is in order.

* `Request`: what a host asks for; `Bench.served`: the bench behind a row of requests.
* `Interpreter.InOrder`: bank, state and last reason of a machine that is not running.
* `Bench.serve_refused`: a refused request changes nothing.
* `Bench.served_stopped`: a machine that has stopped stays as it is until it is restarted.
* `in_order_behind_history`: the theorem. -/

namespace RegisterMachine.Machine

open RegisterMachine.Assembly

/-! ### Requests -/

/-- **What a host asks for.** -/
inductive Request
  /-- Another machine, with the usual settings. -/
  | renew
  /-- Another machine, with these settings. -/
  | configure (settings : Settings)
  | setPacing (pacing : Pacing)
  | act (action : Action)

namespace Request

/-- The number of general registers that a request brings, if it is granted. -/
def registers? : Request → Option Nat
  | renew => some 5
  | configure s => (Interpreter.ofSettings s).toOption.map fun _ => s.registers
  | act (.load _ registers) => (checkCount registers).toOption.map fun _ => registers
  | _ => none

/-- The request is refused: settings that describe no machine, or too many registers. -/
def Refused : Request → Prop
  | configure s => ∃ e, Interpreter.ofSettings s = .error (.refused e)
  | act (.load _ registers) => maxRegisters < registers
  | _ => False

/-- A machine that has stopped goes on behind the request: it is run, or there is another machine or
another program. -/
def Restarts : Request → Prop
  | act (.execute _ _) => True
  | r => r.registers?.isSome

/-- **The last number of registers that was granted.** Before any is asked for, a machine has
five. -/
def lastRegisters (requests : List Request) : Nat := (requests.filterMap registers?).getLastD 5

end Request

namespace Bench

/-- **The bench behind a request**; nothing if a run is not over, or if the request panics. -/
def serve (b : Bench) : Request → Option Bench
  | .renew => some (b.replace {})
  | .configure s =>
    match Interpreter.ofSettings s with
    | .ok m => some (b.replace m)
    | .error (.refused _) => some b
    | .error .panicked => none
  | .setPacing pacing => some { b with interpreter := { b.interpreter with pacing } }
  | .act a => b.perform a

/-- The bench behind a row of requests. -/
def served : Bench → List Request → Option Bench
  | b, [] => some b
  | b, r :: requests => (b.serve r).bind fun b => b.served requests

theorem served_cons {b b' : Bench} {r : Request} {requests : List Request}
    (h : b.served (r :: requests) = some b') :
    ∃ b₁, b.serve r = some b₁ ∧ b₁.served requests = some b' :=
  Option.bind_eq_some_iff.mp h

end Bench

/-! ### Machines in order -/

/-- The names of the registers of a machine, in order. -/
def registerNames (general : Nat) : List String :=
  "Acc" :: (List.range general).map fun k => s!"R{k + 1}"

namespace Interpreter

/-- **A machine in order**, with so many general registers. It is not running: it is idle, or it has
stopped and knows why. -/
structure InOrder (m : Interpreter) (general : Nat) : Prop where
  capped : general ≤ maxRegisters
  names : m.bank.names = registerNames general
  size : m.bank.size = general + 1
  settled : m.state = .idle ∨ m.state = .stopped
  knows : m.Knows

variable {m m' : Interpreter} {general : Nat}

/-! #### Machines and programs that are new -/

theorem checkCount_ok {registers : Nat} {u : Unit} (h : checkCount registers = .ok u) :
    registers ≤ maxRegisters := by
  unfold checkCount at h
  split at h
  · cases h
  · rename_i hle
    exact Nat.le_of_not_lt hle

/-- A machine is in order with a new bank. -/
theorem InOrder.of_zero (hcapped : general ≤ maxRegisters) (hbank : m.bank = Bank.zero general)
    (hstate : m.state = .idle) (hlast : m.lastStop = none) : m.InOrder general where
  capped := hcapped
  names := by rw [hbank, Bank.names_zero, registerNames]
  size := by rw [hbank, Bank.size_zero]
  settled := .inl hstate
  knows := by
    rw [Knows, hstate, hlast]
    constructor
    · rintro ⟨⟩
    · exact fun hne => absurd rfl hne

theorem inOrder_initial : InOrder {} 5 := .of_zero (by decide) rfl rfl rfl

theorem inOrder_ofSettings {s : Settings} (h : ofSettings s = .ok m) : m.InOrder s.registers := by
  obtain ⟨pacing, hpacing, rfl⟩ := Success.map_ok h
  unfold Settings.pacing at hpacing
  split at hpacing
  · cases hpacing
  · rename_i hcount
    exact .of_zero (checkCount_ok hcount) rfl rfl rfl

theorem inOrder_load {program : Program} {registers : Nat} (h : m.load program registers = .ok m') :
    m'.InOrder registers := by
  obtain ⟨_, hcount, rfl⟩ := Success.map_ok h
  exact .of_zero (checkCount_ok hcount) rfl rfl rfl

/-! #### Steps -/

theorem names_advance (m : Interpreter) (i : Instruction) :
    (m.advance i).1.bank.names = m.bank.names := by
  unfold advance
  split
  · rfl
  · exact Bank.names_write _ _ _
  · rfl
  · rfl

theorem size_advance (m : Interpreter) (i : Instruction) :
    (m.advance i).1.bank.size = m.bank.size := by
  unfold advance
  split
  · rfl
  · exact Bank.size_write _ _ _
  · rfl
  · rfl

/-- A step leaves no machine running. -/
theorem settled_step (m : Interpreter) : m.step.1.state = .idle ∨ m.step.1.state = .stopped := by
  obtain ⟨hs, hstep⟩ | ⟨-, -, hstep⟩ | ⟨i, -, -, hstep⟩ := m.step_cases
  · rw [hstep]
    exact .inr hs
  · rw [hstep]
    exact .inr rfl
  obtain ⟨-, hstep⟩ | ⟨_, _, -, hstep⟩ | ⟨_, -, hstep⟩ | ⟨_, -, hstep⟩ := hstep
  · rw [hstep]
    exact .inl rfl
  · rw [hstep]
    exact .inl rfl
  · rw [hstep]
    exact .inl rfl
  · rw [hstep]
    exact .inr rfl

/-- **A step answers the last reason to stop**, and nothing as long as there is none. -/
theorem Knows.answers (h : m.Knows) : m.step.2.2 = m.step.1.lastStop := by
  by_cases hs : m.state = .stopped
  · rw [step_of_stopped hs]
  cases hi : m.current? with
  | none =>
    rw [step_of_end hs hi]
    rfl
  | some i =>
    have hlast : (m.advance i).1.lastStop = m.lastStop := by
      unfold advance
      split <;> rfl
    rw [step_of_running hs hi]
    rcases hadvance : m.advance i with ⟨m', events, _ | reason⟩
    · rw [hadvance] at hlast
      exact ((hlast : m'.lastStop = m.lastStop).trans (h.running_iff.mpr hs)).symm
    · rfl

theorem InOrder.step (h : m.InOrder general) : m.step.1.InOrder general where
  capped := h.capped
  names := (names_step m).trans h.names
  size := (size_step m).trans h.size
  settled := settled_step m
  knows := h.knows.step

/-! #### Runs -/

section Runs

variable {α : Type} {publish : α → Event → α} {ticks : Nat → Tick} {fuel : Nat} {log log' : α}
  {reason : StopReason}

/-- The body of a run keeps the names and the number of the registers. -/
theorem bank_executeFrom {e : Halted α} :
    ∀ {fuel waited : Nat} {log : α} {m : Interpreter},
      executeFrom publish ticks fuel waited log m = .ok e →
      e.machine.bank.names = m.bank.names ∧ e.machine.bank.size = m.bank.size
  | 0, _, _, _, h => by cases h
  | fuel + 1, waited, log, m, h => by
    rw [executeFrom] at h
    split at h
    · cases h
      exact ⟨rfl, rfl⟩
    rename_i i hi
    have hnames := names_advance m i
    have hsize := size_advance m i
    split at h
    · cases h
    · cases h
      exact ⟨rfl, rfl⟩
    split at h
    · rename_i heq
      cases h
      rw [heq] at hnames hsize
      exact ⟨hnames, hsize⟩
    · rename_i heq
      rw [heq] at hnames hsize
      obtain ⟨hnames', hsize'⟩ := bank_executeFrom h
      exact ⟨hnames'.trans hnames, hsize'.trans hsize⟩

/-- **A run that is over leaves a machine that has stopped** with the reason that it answers,
whether or not the machine had stopped before. -/
theorem executeWith_stops (h : m.executeWith publish ticks fuel log = .ok (m', log', reason)) :
    m'.state = .stopped ∧ m'.lastStop = some reason := by
  obtain ⟨e, -, rfl, -, -⟩ := executeWith_ok h
  exact ⟨rfl, rfl⟩

theorem InOrder.execute (h : m.InOrder general)
    (hrun : m.executeWith publish ticks fuel log = .ok (m', log', reason)) :
    m'.InOrder general := by
  obtain ⟨e, hloop, rfl, -, -⟩ := executeWith_ok hrun
  obtain ⟨hnames, hsize⟩ := bank_executeFrom hloop
  exact ⟨h.capped, hnames.trans h.names, hsize.trans h.size, .inr rfl, knows_stop _ _⟩

end Runs

end Interpreter

namespace Bench

open Interpreter

variable {b b' : Bench} {r : Request} {requests : List Request} {general : Nat}

/-- A run on a bench is one of its interpreter. -/
theorem executeWith_interpreter {ticks : Nat → Tick} {fuel : Nat} {reason : StopReason}
    (h : b.executeWith ticks fuel = .ok (b', reason)) :
    b.interpreter.executeWith Observers.publish ticks fuel b.observers =
      .ok (b'.interpreter, b'.observers, reason) := by
  obtain ⟨⟨m, o, reason'⟩, hrun, heq⟩ := Success.map_ok h
  cases heq
  exact hrun

/-- An action keeps a machine in order, with the registers that it brings. -/
theorem perform_inOrder (h : b.interpreter.InOrder general) {a : Action}
    (ha : b.perform a = some b') :
    b'.interpreter.InOrder ((Request.act a).registers?.getD general) := by
  cases a with
  | subscribe | leave | collect =>
    cases ha
    exact h
  | step =>
    cases ha
    exact h.step
  | execute ticks fuel =>
    obtain ⟨⟨b₁, reason⟩, hanswer, rfl⟩ := Option.map_eq_some_iff.mp ha
    exact h.execute (executeWith_interpreter (Success.ok_of_toOption hanswer))
  | load program registers =>
    cases ha
    rw [load, Request.registers?]
    cases hload : b.interpreter.load program registers with
    | ok m =>
      obtain ⟨_, hcount, -⟩ := Success.map_ok hload
      rw [hcount]
      exact inOrder_load hload
    | error e =>
      cases hcount : checkCount registers with
      | ok u =>
        rw [Interpreter.load, hcount] at hload
        cases hload
      | error e' => exact h

/-- **A request keeps a machine in order**, with the registers that it brings. -/
theorem serve_inOrder (h : b.interpreter.InOrder general) (hr : b.serve r = some b') :
    b'.interpreter.InOrder (r.registers?.getD general) := by
  cases r with
  | renew =>
    cases hr
    exact inOrder_initial
  | configure s =>
    rw [serve] at hr
    rw [Request.registers?]
    cases hs : ofSettings s with
    | ok m =>
      rw [hs] at hr
      cases hr
      exact inOrder_ofSettings hs
    | error e =>
      rw [hs] at hr
      cases e with
      | refused e =>
        cases hr
        exact h
      | panicked => cases hr
  | setPacing pacing =>
    cases hr
    exact ⟨h.capped, h.names, h.size, h.settled, h.knows⟩
  | act a => exact perform_inOrder h hr

theorem served_inOrder (h : b.interpreter.InOrder general) (hb : b.served requests = some b') :
    b'.interpreter.InOrder ((requests.filterMap Request.registers?).getLastD general) := by
  induction requests generalizing b general with
  | nil =>
    cases hb
    exact h
  | cons r requests ih =>
    obtain ⟨b₁, hfirst, hrest⟩ := served_cons hb
    have hnext := ih (serve_inOrder h hfirst) hrest
    cases hr : r.registers? with
    | none =>
      rw [List.filterMap_cons_none hr]
      rwa [hr] at hnext
    | some registers =>
      rw [List.filterMap_cons_some hr, List.getLastD_cons]
      rwa [hr] at hnext

/-- **A request that is refused changes nothing.** -/
theorem serve_refused (b : Bench) (h : r.Refused) : b.serve r = some b := by
  cases r with
  | renew | setPacing => exact h.elim
  | configure s =>
    obtain ⟨e, he⟩ := h
    rw [serve, he]
  | act a =>
    cases a with
    | load program registers =>
      have hcount : checkCount registers = .error (.registerCount registers) := if_pos h
      rw [serve, perform, load, Interpreter.load, hcount]
      rfl
    | subscribe | leave | collect | step | execute => exact h.elim

/-- A step of a machine that has stopped answers its last reason. Nothing changes, and nobody hears
anything. -/
theorem step_stopped (h : b.interpreter.state = .stopped) :
    b.step = (b, b.interpreter.lastStop) := by
  rw [step, step_of_stopped h]
  rfl

theorem serve_stopped (h : b.interpreter.state = .stopped) (hr : ¬ r.Restarts)
    (hb : b.serve r = some b') :
    b'.interpreter = { b.interpreter with pacing := b'.interpreter.pacing } := by
  cases r with
  | renew => exact absurd rfl hr
  | setPacing =>
    cases hb
    rfl
  | configure s =>
    rw [serve] at hb
    cases hs : ofSettings s with
    | ok m =>
      refine absurd ?_ hr
      rw [Request.Restarts, Request.registers?, hs]
      · rfl
      · nofun
    | error e =>
      rw [hs] at hb
      cases e with
      | refused e =>
        cases hb
        rfl
      | panicked => cases hb
  | act a =>
    cases a with
    | subscribe | leave | collect =>
      cases hb
      rfl
    | step =>
      rw [serve, perform, step_stopped h] at hb
      cases hb
      rfl
    | execute => exact absurd trivial hr
    | load program registers =>
      have hrefused : (Request.act (.load program registers)).Refused := by
        refine Nat.lt_of_not_le fun hle => hr ?_
        have hcount : checkCount registers = .ok () := if_neg (Nat.not_lt.mpr hle)
        rw [Request.Restarts, Request.registers?, hcount]
        · rfl
        · nofun
      rw [serve_refused b hrefused] at hb
      cases hb
      rfl

/-- **A machine that has stopped stays as it is** until it is restarted, its pace apart. -/
theorem served_stopped (h : b.interpreter.state = .stopped) (hr : ∀ r ∈ requests, ¬ r.Restarts)
    (hb : b.served requests = some b') :
    b'.interpreter = { b.interpreter with pacing := b'.interpreter.pacing } := by
  induction requests generalizing b with
  | nil =>
    cases hb
    rfl
  | cons r requests ih =>
    obtain ⟨b₁, hfirst, hrest⟩ := served_cons hb
    have hkept := serve_stopped h (hr r List.mem_cons_self) hfirst
    have hstop : b₁.interpreter.state = .stopped := by
      rw [hkept]
      exact h
    have hlast := ih hstop (fun r' hr' => hr r' (List.mem_cons_of_mem r hr')) hrest
    rw [hlast, hkept]

end Bench

/-! ### The theorem -/

/-- **Machines are in order behind any history.** A host begins with a new machine, and each of its
requests is served. Then

* the machine is in order, with the registers that were granted last and their names: it is idle or
has stopped, and it has a last reason exactly if it has stopped;
* a request that is refused changes nothing;
* a step answers the last reason, and a run leaves a machine that has stopped with its answer;
* a machine that has stopped stays as it is, and its steps answer the last reason and are heard by
nobody, until it is restarted. -/
theorem in_order_behind_history {requests : List Request} {b : Bench}
    (h : Bench.served {} requests = some b) :
    b.interpreter.InOrder (Request.lastRegisters requests) ∧
    (∀ r : Request, r.Refused → b.serve r = some b) ∧
    (b.step.2 = b.step.1.interpreter.lastStop ∧
      ∀ ticks fuel b' reason, b.executeWith ticks fuel = .ok (b', reason) →
        b'.interpreter.state = .stopped ∧ b'.interpreter.lastStop = some reason) ∧
    ∀ more b', b.interpreter.state = .stopped → (∀ r ∈ more, ¬ r.Restarts) →
      b.served more = some b' →
        b'.interpreter = { b.interpreter with pacing := b'.interpreter.pacing } ∧
          b'.step = (b', b.interpreter.lastStop) := by
  have horder : b.interpreter.InOrder (Request.lastRegisters requests) :=
    Bench.served_inOrder Interpreter.inOrder_initial h
  refine ⟨horder, fun r => b.serve_refused, ⟨horder.knows.answers, fun ticks fuel b' reason hrun =>
    Interpreter.executeWith_stops (Bench.executeWith_interpreter hrun)⟩,
    fun more b' hstop hmore hb => ?_⟩
  have hkept := Bench.served_stopped hstop hmore hb
  have hstopped : b'.interpreter.state = .stopped := by
    rw [hkept]
    exact hstop
  have hlast : b'.interpreter.lastStop = b.interpreter.lastStop := by rw [hkept]
  exact ⟨hkept, (Bench.step_stopped hstopped).trans (by rw [hlast])⟩

/-- A program whose jump was never resolved. -/
def stray : Program where
  instructions := #[⟨.goto, some (.reference "NOWHERE" none {}), {}⟩]

/-- A host that asks for too much twice, and runs the stray program on a machine with three general
registers. -/
def overasking : List Request :=
  [.configure { registers := 2, realTime := true }, .configure { registers := 70000 },
    .act (.load stray 3), .act (.load stray 70000), .act .subscribe,
    .act (.execute (fun _ => .comes) 5)]

/-- The machine has stopped at its jump, and still says so when another program was refused. -/
theorem stray_in_order : ∃ b, Bench.served {} overasking = some b ∧
    b.interpreter.InOrder 3 ∧ b.interpreter.state = .stopped ∧
    b.interpreter.lastStop = some (.fault (.unresolvedLabel 0)) ∧
    (∀ r ∈ [Request.act .step, .act (.load stray 70000)], ¬ r.Restarts) ∧
    b.served [.act .step, .act (.load stray 70000)] = some b ∧
    b.step = (b, some (.fault (.unresolvedLabel 0))) := by
  have hserved : Bench.served {} overasking = some ((Bench.served {} overasking).get rfl) := rfl
  obtain ⟨horder, -, -, hstopped⟩ := in_order_behind_history hserved
  have hmore : ∀ r ∈ [Request.act .step, .act (.load stray 70000)], ¬ r.Restarts := by
    simp [Request.Restarts, Request.registers?, checkCount, maxRegisters, Except.toOption]
  exact ⟨_, rfl, horder, rfl, rfl, hmore, rfl, (hstopped _ _ rfl hmore rfl).2⟩

end RegisterMachine.Machine
