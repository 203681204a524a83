import RegisterMachine.Proofs.Machine.Effects
import RegisterMachine.Proofs.Machine.Run
import RegisterMachine.Proofs.Success

/-! # What the events of a machine tell

Whoever hears the events of a machine can follow it: every instruction that is executed is told by
its address, and every register that gets another value is told with this value, directly behind the
instruction. A value that is written where it stands already is not told, and makes no difference.

* `Tells`: the events and the way of the machine.
* `Tells.replay`: the changes that are told make one bank from the other.
* `Tells.changes_once`: an instruction changes one register at most.
* `tells_step`, `tells_execute`: a step and a run tell what they do.
* `executeWith_publish`: a run publishes the same, whatever listens. -/

namespace RegisterMachine.Machine

open RegisterMachine.Assembly

/-- An event, written down behind those before it. -/
def record (events : List Event) (e : Event) : List Event := events ++ [e]

theorem foldl_record (log events : List Event) : events.foldl record log = log ++ events := by
  induction events generalizing log with
  | nil => exact (List.append_nil log).symm
  | cons e events ih => rw [List.foldl_cons, ih, record, List.append_assoc, List.singleton_append]

namespace Event

def isStep : Event → Bool
  | stepped _ => true
  | _ => false

def isChange : Event → Bool
  | changed _ _ => true
  | _ => false

end Event

namespace Bank

/-- The bank of an observer who hears an event. -/
def hear (b : Bank) : Event → Bank
  | .changed register value => b.write register value
  | _ => b

/-- **The bank of an observer** who knew a bank and has heard these events since. -/
def replay (b : Bank) (events : List Event) : Bank := events.foldl hear b

theorem write_of_read? {b : Bank} {register : Nat} {value : UInt32}
    (h : b.read? register = some value) : b.write register value = b := by
  obtain ⟨cell, hcell, rfl⟩ := Option.map_eq_some_iff.mp h
  obtain ⟨cells⟩ := b
  simp only [write, Bank.mk.injEq]
  refine Array.ext_getElem? fun other => ?_
  rw [Array.getElem?_modify]
  split
  · rename_i heq
    subst heq
    rw [show cells[register]? = some cell from hcell]
    rfl
  · rfl

end Bank

/-- **What events tell**: the way of a machine, with the address of each instruction that it
executes, and with the register that gets another value by it, if there is one. Programs are loaded
on the way only if `loads` allows it. -/
inductive Tells (loads : Prop) : Interpreter → List Event → Interpreter → Prop
  | nothing (m : Interpreter) : Tells loads m [] m
  | loaded {m start last : Interpreter} {events : List Event} {p : Program} {registers : Nat}
      (allowed : loads) (load : m.load p registers = .ok start)
      (rest : Tells loads start events last) : Tells loads m events last
  | started {m last : Interpreter} {events : List Event}
      (rest : Tells loads { m with state := .running } events last) :
      Tells loads m (.started :: events) last
  | stopped {m last : Interpreter} {events : List Event} {reason : StopReason}
      (rest : Tells loads (m.stop reason) events last) :
      Tells loads m (.stopped reason :: events) last
  | quiet {m last : Interpreter} {events : List Event} {i : Instruction} {state : State}
      (current : m.current? = some i) (same : (m.advance i).1.bank = m.bank)
      (rest : Tells loads { (m.advance i).1 with state } events last) :
      Tells loads m (.stepped m.counter :: events) last
  | change {m last : Interpreter} {events : List Event} {i : Instruction} {state : State}
      {register : Nat} {old value : UInt32} (current : m.current? = some i)
      (read : m.bank.read? register = some old) (differs : old ≠ value)
      (written : (m.advance i).1.bank = m.bank.write register value)
      (rest : Tells loads { (m.advance i).1 with state } events last) :
      Tells loads m (.stepped m.counter :: .changed register value :: events) last

namespace Tells

variable {loads : Prop} {m last : Interpreter} {events between : List Event}

theorem append {middle : Interpreter} {more : List Event} (h : Tells loads m events middle)
    (hmore : Tells loads middle more last) : Tells loads m (events ++ more) last := by
  induction h with
  | nothing => exact hmore
  | loaded allowed load _ ih => exact .loaded allowed load (ih hmore)
  | started _ ih => exact .started (ih hmore)
  | stopped _ ih => exact .stopped (ih hmore)
  | quiet current same _ ih => exact .quiet current same (ih hmore)
  | change current read differs written _ ih =>
    exact .change current read differs written (ih hmore)

theorem mono {loads' : Prop} (h : Tells loads m events last) (himp : loads → loads') :
    Tells loads' m events last := by
  induction h with
  | nothing m => exact .nothing m
  | loaded allowed load _ ih => exact .loaded (himp allowed) load ih
  | started _ ih => exact .started ih
  | stopped _ ih => exact .stopped ih
  | quiet current same _ ih => exact .quiet current same ih
  | change current read differs written _ ih => exact .change current read differs written ih

/-- A machine keeps its accumulator. -/
theorem nonempty (h : Tells loads m events last) (hbank : 0 < m.bank.size) :
    0 < last.bank.size := by
  induction h with
  | nothing => exact hbank
  | loaded _ load _ ih =>
    obtain ⟨_, -, rfl⟩ := Success.map_ok load
    exact ih (by simp)
  | started _ ih => exact ih hbank
  | stopped _ ih => exact ih hbank
  | quiet _ same _ ih =>
    refine ih ?_
    rw [same]
    exact hbank
  | change _ _ _ written _ ih =>
    refine ih ?_
    rw [written, Bank.size_write]
    exact hbank

/-- **The changes that are told make one bank from the other**, unless a program is loaded. -/
theorem replay (h : Tells loads m events last) (hloads : ¬ loads) :
    m.bank.replay events = last.bank := by
  induction h with
  | nothing => rfl
  | loaded allowed => exact absurd allowed hloads
  | started _ ih => exact ih
  | stopped _ ih => exact ih
  | quiet _ same _ ih =>
    rw [← ih, same]
    rfl
  | change _ _ _ written _ ih =>
    rw [← ih, written]
    rfl

/-- Before the first instruction nothing changes. -/
theorem unchanged (h : Tells loads m events last) {after : List Event}
    (hevents : events = between ++ after) (hbetween : ∀ e ∈ between, e.isStep = false) :
    between.countP Event.isChange = 0 := by
  induction h generalizing between with
  | nothing =>
    rw [(List.append_eq_nil_iff.mp hevents.symm).1]
    rfl
  | loaded _ _ _ ih => exact ih hevents hbetween
  | started _ ih | stopped _ ih =>
    cases between with
    | nil => rfl
    | cons e between =>
      obtain ⟨rfl, hrest⟩ := List.cons.inj hevents
      rw [List.countP_cons_of_neg Bool.false_ne_true]
      exact ih hrest (List.forall_mem_cons.mp hbetween).2
  | quiet | change =>
    cases between with
    | nil => rfl
    | cons e between =>
      obtain ⟨rfl, -⟩ := List.cons.inj hevents
      cases (List.forall_mem_cons.mp hbetween).1

/-- **Between two instructions there is one change at most.** -/
theorem changes_once (h : Tells loads m events last) {before after : List Event} {address : Nat}
    (hevents : events = before ++ .stepped address :: (between ++ after))
    (hbetween : ∀ e ∈ between, e.isStep = false) : between.countP Event.isChange ≤ 1 := by
  induction h generalizing before with
  | nothing => cases (List.append_eq_nil_iff.mp hevents.symm).2
  | loaded _ _ _ ih => exact ih hevents
  | started _ ih | stopped _ ih =>
    cases before with
    | nil => cases hevents
    | cons e before =>
      obtain ⟨-, hrest⟩ := List.cons.inj hevents
      exact ih hrest
  | quiet _ _ rest ih =>
    cases before with
    | nil =>
      rw [rest.unchanged (List.cons.inj hevents).2 hbetween]
      exact Nat.zero_le 1
    | cons e before => exact ih (List.cons.inj hevents).2
  | change _ _ _ _ rest ih =>
    obtain _ | ⟨e, _ | ⟨e', before⟩⟩ := before
    · cases between with
      | nil => exact Nat.zero_le 1
      | cons e between =>
        have hrest := rest.unchanged (List.cons.inj (List.cons.inj hevents).2).2
          (List.forall_mem_cons.mp hbetween).2
        rw [List.countP_cons, hrest]
        split <;> decide
    · cases (List.cons.inj (List.cons.inj hevents).2).1
    · exact ih (List.cons.inj (List.cons.inj hevents).2).2

end Tells

/-! ### Steps and runs -/

namespace Interpreter

variable {loads : Prop} {m m' : Interpreter} {i : Instruction} {ticks : Nat → Tick} {fuel : Nat}
  {events : List Event} {reason : StopReason}

/-- **What an instruction tells.** Only a register that gets another value is told. -/
theorem advance_cases (hbank : 0 < m.bank.size) (i : Instruction) :
    ((m.advance i).1.bank = m.bank ∧ (m.advance i).2.1 = [.stepped m.counter]) ∨
    ∃ register old value, m.bank.read? register = some old ∧ old ≠ value ∧
      (m.advance i).1.bank = m.bank.write register value ∧
      (m.advance i).2.1 = [.stepped m.counter, .changed register value] := by
  unfold advance
  cases he : effect m.bank m.counter i with
  | next | jump | halt => exact .inl ⟨rfl, rfl⟩
  | write register value =>
    have hlt := lt_size_of_effect hbank he
    obtain ⟨old, hread⟩ := read?_isSome hlt
    dsimp only
    by_cases hsame : m.bank.read? register = some value
    · rw [changes, if_pos hsame]
      exact .inl ⟨Bank.write_of_read? hsame, rfl⟩
    · rw [changes, if_neg hsame]
      exact .inr ⟨register, old, value, hread, fun heq => hsame (heq ▸ hread), rfl, rfl⟩

theorem tells_advance (hbank : 0 < m.bank.size) (hi : m.current? = some i) (state : State) :
    Tells loads m (m.advance i).2.1 { (m.advance i).1 with state } := by
  obtain ⟨hsame, hevents⟩ | ⟨register, old, value, hread, hdiffers, hwritten, hevents⟩ :=
    advance_cases hbank i
  · rw [hevents]
    exact .quiet hi hsame (.nothing _)
  · rw [hevents]
    exact .change hi hread hdiffers hwritten (.nothing _)

/-- **A step tells what it does.** -/
theorem tells_step (hbank : 0 < m.bank.size) : Tells loads m m.step.2.1 m.step.1 := by
  by_cases hs : m.state = .stopped
  · rw [step_of_stopped hs]
    exact .nothing m
  cases hi : m.current? with
  | none =>
    rw [step_of_end hs hi]
    exact .stopped (.nothing _)
  | some i =>
    have hadvance : ∀ state, Tells loads m (m.advance i).2.1 { (m.advance i).1 with state } :=
      tells_advance hbank hi
    rw [step_of_running hs hi]
    rcases hm : m.advance i with ⟨m', events, _ | reason⟩
    · rw [hm] at hadvance
      exact hadvance .idle
    · rw [hm] at hadvance
      exact (hadvance m'.state).append (.stopped (.nothing _))

/-- A run that is over has ended its loop, and has published its end. -/
theorem executeWith_ok {α : Type} {publish : α → Event → α} {log log' : α}
    (h : m.executeWith publish ticks fuel log = .ok (m', log', reason)) : ∃ e : Halted α,
      executeFrom publish ticks (fuel + 1) 0 (publish log .started) { m with state := .running } =
        .ok e ∧
      m' = e.machine.stop reason ∧ log' = publish e.log (.stopped reason) ∧ reason = e.reason := by
  obtain ⟨e, hrun, hfinish⟩ := Success.bind_ok h
  refine ⟨e, hrun, ?_⟩
  unfold finish at hfinish
  split at hfinish
  · cases hfinish
  · cases hfinish
    exact ⟨rfl, rfl, rfl⟩

theorem tells_executeFrom :
    ∀ {fuel waited : Nat} {log : List Event} {m : Interpreter} {e : Halted (List Event)},
      0 < m.bank.size → executeFrom record ticks fuel waited log m = .ok e →
      ∃ more, e.log = log ++ more ∧ Tells loads m more e.machine
  | 0, _, _, _, _, _, h => by cases h
  | fuel + 1, waited, log, m, e, hbank, h => by
    rw [executeFrom] at h
    cases hi : m.current? with
    | none =>
      rw [hi] at h
      cases h
      exact ⟨[], (List.append_nil _).symm, .nothing _⟩
    | some i =>
      have hadvance : Tells loads m (m.advance i).2.1 (m.advance i).1 := tells_advance hbank hi _
      simp only [hi] at h
      split at h
      · cases h
      · cases h
        exact ⟨[], (List.append_nil _).symm, .nothing _⟩
      · rcases hm : m.advance i with ⟨m₁, told, _ | answer⟩ <;> rw [hm] at hadvance h
        · obtain ⟨more, hlog, hmore⟩ := tells_executeFrom (hadvance.nonempty hbank) h
          refine ⟨told ++ more, ?_, hadvance.append hmore⟩
          rw [hlog, foldl_record, List.append_assoc]
        · cases h
          exact ⟨told, foldl_record log told, hadvance⟩

/-- **A run tells what it does.** -/
theorem tells_execute (hbank : 0 < m.bank.size)
    (h : m.executeWith record ticks fuel [] = .ok (m', events, reason)) :
    Tells loads m events m' := by
  obtain ⟨e, hrun, rfl, rfl, rfl⟩ := executeWith_ok h
  obtain ⟨more, hlog, hmore⟩ := tells_executeFrom
    (show 0 < (bank { m with state := .running }).size from hbank) hrun
  rw [hlog]
  exact .started (hmore.append (.stopped (.nothing _)))

/-! ### Listeners -/

variable {α : Type} (publish : α → Event → α)

/-- What the body of a run has told, to another listener. -/
def Halted.retold (first : α) (e : Halted (List Event)) : Halted α :=
  ⟨e.waited, e.machine, e.log.foldl publish first, e.reason⟩

theorem executeFrom_publish (ticks : Nat → Tick) (first : α) :
    ∀ (fuel waited : Nat) (log : List Event) (m : Interpreter),
      executeFrom publish ticks fuel waited (log.foldl publish first) m =
        (executeFrom record ticks fuel waited log m).map (Halted.retold publish first)
  | 0, _, _, _ => rfl
  | fuel + 1, waited, log, m => by
    have hfold : ∀ events : List Event, events.foldl publish (log.foldl publish first) =
        (events.foldl record log).foldl publish first := fun events => by
      rw [foldl_record, List.foldl_append]
    rw [executeFrom, executeFrom]
    cases m.current? with
    | none => rfl
    | some i =>
      dsimp only
      cases ticks waited with
      | overflows | cancelled => rfl
      | comes =>
        rcases m.advance i with ⟨m', events, _ | reason⟩
        · dsimp only
          rw [hfold, executeFrom_publish]
        · dsimp only
          rw [hfold]
          rfl

theorem finish_retold (ticks : Nat → Tick) (first : α) (e : Halted (List Event)) :
    finish publish ticks (e.retold publish first) =
      (finish record ticks e).map
        fun (m, events, reason) => (m, events.foldl publish first, reason) := by
  unfold finish
  show (if e.machine.lingers e.reason = true ∧ ticks e.waited = .overflows then _ else _) = _
  by_cases h : e.machine.lingers e.reason = true ∧ ticks e.waited = .overflows
  · rw [if_pos h, if_pos h]
    rfl
  · have hlog : (record e.log (.stopped e.reason)).foldl publish first =
        publish (e.log.foldl publish first) (.stopped e.reason) := by
      rw [record, List.foldl_append]
      rfl
    rw [if_neg h, if_neg h]
    show _ = Except.ok (_, (record e.log (.stopped e.reason)).foldl publish first, _)
    rw [hlog]
    rfl

/-- **A run publishes the same, whatever listens**, and does not depend on it. -/
theorem executeWith_publish (ticks : Nat → Tick) (fuel : Nat) (log : α) (m : Interpreter) :
    m.executeWith publish ticks fuel log =
      (m.executeWith record ticks fuel []).map
        fun (m, events, reason) => (m, events.foldl publish log, reason) := by
  have hrun := executeFrom_publish publish ticks log (fuel + 1) 0 [.started]
    { m with state := .running }
  rw [executeWith, executeWith]
  change (executeFrom publish ticks (fuel + 1) 0 (([.started] : List Event).foldl publish log)
      { m with state := .running } >>= finish publish ticks) =
    (executeFrom record ticks (fuel + 1) 0 [.started] { m with state := .running } >>=
      finish record ticks).map _
  rw [hrun]
  cases executeFrom record ticks (fuel + 1) 0 [.started] { m with state := .running } with
  | error e => rfl
  | ok e => exact finish_retold publish ticks log e

end Interpreter

end RegisterMachine.Machine
