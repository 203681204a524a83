import RegisterMachine.Proofs.Machine.Effects
import RegisterMachine.Proofs.Machine.Run
import RegisterMachine.Proofs.Machine.Ticks

/-! # The run loop and single steps

A run does what a host does that steps the machine until it is told a reason to stop. The loop tests
the end of the memory before it waits for a tick, and a step sets the state of the machine; neither
can be seen behind the run. What can be seen is that a run waits: if a tick that it waits for is due
behind the last instant, it panics and never answers.

* `executeFrom_silent`, `executeFrom_answers`, `executeFrom_overflows`: one turn of the loop is one
  step, unless the tick before it overflows.
* `StopsAt`: the first step that answers a reason; `waits`: the ticks of a run up to there.
* `execute_follows_steps`: a run that is never cancelled is the steps up to that one, or has no end;
  a run that is cancelled before it begins executes nothing.
* `eternal_panics`: a machine with a period that no instant can hold.
* `execute_paced`: a run that begins at instant zero is one on a steady clock. -/

namespace RegisterMachine.Machine

namespace Interpreter

open RegisterMachine.Assembly

variable {α : Type} (publish : α → Event → α) {ticks : Nat → Tick}

/-! ### Turns of the loop -/

section Turns

variable {m : Interpreter} {reason : StopReason}

theorem pacing_step (m : Interpreter) : m.step.1.pacing = m.pacing := by
  obtain ⟨-, hstep⟩ | ⟨-, -, hstep⟩ | ⟨i, -, -, hstep⟩ := m.step_cases
  · rw [hstep]
  · rw [hstep]
    rfl
  obtain ⟨-, hstep⟩ | ⟨_, _, -, hstep⟩ | ⟨_, -, hstep⟩ | ⟨_, -, hstep⟩ := hstep
  all_goals
    rw [hstep]
    try rfl

/-- A step does not answer that the run was cancelled. -/
theorem step_ne_cancelled (h : m.state ≠ .stopped) : m.step.2.2 ≠ some .cancelled := by
  cases hi : m.current? with
  | none =>
    rw [step_of_end h hi]
    exact nofun
  | some i =>
    have hno : effect m.bank m.counter i ≠ .halt .cancelled := effect_ne_cancelled m.counter i
    rw [step_of_running h hi]
    unfold advance
    cases he : effect m.bank m.counter i with
    | next | write | jump => exact nofun
    | halt reason =>
      intro hcancelled
      cases hcancelled
      exact hno he

/-- **A turn of the loop whose step answers nothing**: the loop goes on from the machine behind
it. -/
theorem executeFrom_silent (h : m.state ≠ .stopped) (hsilent : m.step.2.2 = none) {waited : Nat}
    (htick : ticks waited = .comes) (fuel : Nat) (log : α) :
    executeFrom publish ticks (fuel + 1) waited log { m with state := .running } =
      executeFrom publish ticks fuel (waited + 1) (m.step.2.1.foldl publish log)
        { m.step.1 with state := .running } := by
  cases hi : m.current? with
  | none =>
    rw [step_of_end h hi] at hsilent
    cases hsilent
  | some i =>
    have hi' : current? { m with state := .running } = some i := hi
    rw [step_of_running h hi] at hsilent ⊢
    rw [executeFrom]
    simp only [hi', htick, advance_state]
    rcases hadvance : m.advance i with ⟨m', events, _ | reason⟩
    · rfl
    · rw [hadvance] at hsilent
      cases hsilent

/-- **A turn of the loop whose step answers a reason**: the loop is over, behind a tick unless the
memory has ended, and its end makes the machine and the events of the step. -/
theorem executeFrom_answers (h : m.state ≠ .stopped) (hanswer : m.step.2.2 = some reason)
    {waited : Nat} (htick : m.current? ≠ none → ticks waited = .comes) (fuel : Nat) (log : α) :
    ∃ e : Halted α,
      executeFrom publish ticks (fuel + 1) waited log { m with state := .running } = .ok e ∧
      e.waited = waited + (if m.current? = none then 0 else 1) ∧ e.reason = reason ∧
      e.machine.pacing = m.pacing ∧ e.machine.stop reason = m.step.1 ∧
      publish e.log (.stopped reason) = m.step.2.1.foldl publish log := by
  cases hi : m.current? with
  | none =>
    have hi' : current? { m with state := .running } = none := hi
    rw [step_of_end h hi] at hanswer ⊢
    cases hanswer
    refine ⟨⟨waited, { m with state := .running }, log, .endOfProgram⟩, ?_, rfl, rfl, rfl, rfl, rfl⟩
    rw [executeFrom, hi']
  | some i =>
    have hi' : current? { m with state := .running } = some i := hi
    have hcomes : ticks waited = .comes := htick (by rw [hi]; exact nofun)
    have hpacing : (m.advance i).1.pacing = m.pacing := by
      unfold advance
      split <;> rfl
    rw [step_of_running h hi] at hanswer ⊢
    rw [executeFrom]
    simp only [hi', hcomes, advance_state]
    rcases hadvance : m.advance i with ⟨m', events, _ | reason'⟩
    · rw [hadvance] at hanswer
      cases hanswer
    · rw [hadvance] at hanswer hpacing
      cases hanswer
      refine ⟨_, rfl, rfl, rfl, hpacing, rfl, ?_⟩
      rw [List.foldl_append]
      rfl

/-- A turn of the loop whose tick overflows. -/
theorem executeFrom_overflows (hi : m.current? ≠ none) {waited : Nat}
    (htick : ticks waited = .overflows) (fuel : Nat) (log : α) :
    executeFrom publish ticks (fuel + 1) waited log { m with state := .running } =
      .error .panicked := by
  obtain ⟨i, hi⟩ := Option.ne_none_iff_exists'.mp hi
  have hi' : current? { m with state := .running } = some i := hi
  rw [executeFrom, hi']
  dsimp only
  rw [htick]

end Turns

/-! ### The first answer -/

/-- **The first step that answers a reason** is the one behind `k` others. -/
structure StopsAt (m : Interpreter) (k : Nat) (reason : StopReason) : Prop where
  silent : ∀ j < k, (m.after j).step.2.2 = none
  answers : (m.after k).step.2.2 = some reason

/-- **The ticks of a run that makes `k` steps and one more**: one before each instruction, and
another one behind the last. -/
def waits (m : Interpreter) (k : Nat) : Nat := if (m.after k).current? = none then k + 1 else k + 2

variable {m : Interpreter} {k : Nat} {reason : StopReason}

/-- A step that answers nothing leaves a machine that runs. -/
theorem running_of_silent (h : m.state ≠ .stopped) (hsilent : m.step.2.2 = none) :
    m.step.1.state ≠ .stopped ∧ m.current? ≠ none := by
  cases hi : m.current? with
  | none =>
    rw [step_of_end h hi] at hsilent
    cases hsilent
  | some i =>
    rw [step_of_running h hi] at hsilent ⊢
    rcases hadvance : m.advance i with ⟨m', events, _ | reason⟩
    · exact ⟨nofun, nofun⟩
    · rw [hadvance] at hsilent
      cases hsilent

theorem StopsAt.next (h : m.StopsAt (k + 1) reason) : m.step.1.StopsAt k reason where
  silent j hj := by
    rw [← after_one_add]
    exact h.silent (1 + j) (by omega)
  answers := by
    rw [← after_one_add, Nat.add_comm]
    exact h.answers

theorem waits_succ (m : Interpreter) (k : Nat) : m.waits (k + 1) = m.step.1.waits k + 1 := by
  rw [waits, waits, ← after_one_add, Nat.add_comm 1 k]
  split <;> rfl

/-- The end of a run that is cancelled, or whose last tick fits. -/
theorem finish_ok {e : Halted α} (h : ticks e.waited ≠ .overflows ∨ e.reason = .cancelled) :
    finish publish ticks e =
      .ok (e.machine.stop e.reason, publish e.log (.stopped e.reason), e.reason) := by
  refine if_neg ?_
  rintro ⟨hlingers, hoverflows⟩
  obtain h | h := h
  · exact h hoverflows
  · simp [lingers, h] at hlingers

theorem finish_panicked {e : Halted α} (h : ticks e.waited = .overflows)
    (hreason : e.reason ≠ .cancelled) (hpacing : e.machine.pacing ≠ .realTime) :
    finish publish ticks e = .error .panicked :=
  if_pos ⟨by simp [lingers, hreason, hpacing], h⟩

section Loop

variable (hticks : ∀ k, ticks k ≠ .cancelled)

include hticks

/-- A tick of a run that is not cancelled comes, if it fits. -/
theorem comes_of_fits {waited : Nat} (h : ticks waited ≠ .overflows) : ticks waited = .comes := by
  cases htick : ticks waited with
  | comes => rfl
  | cancelled => exact absurd htick (hticks waited)
  | overflows => exact absurd htick h

/-- **A run makes the steps up to the first that answers a reason**, if its ticks fit. -/
theorem executeFrom_stops :
    ∀ {k : Nat} {m : Interpreter}, m.state ≠ .stopped → m.StopsAt k reason →
      ∀ {fuel : Nat}, k < fuel → ∀ (waited : Nat) (log : α), Fits ticks waited (m.waits k) →
        executeFrom publish ticks fuel waited log { m with state := .running } >>=
            finish publish ticks =
          .ok (m.after (k + 1), (m.eventsOf (k + 1)).foldl publish log, reason)
  | 0, m, h, hstop, fuel + 1, _, waited, log, hfits => by
    have hanswer : m.step.2.2 = some reason := hstop.answers
    have hfits' : ∀ j < (if m.current? = none then 1 else 2), ticks (waited + j) ≠ .overflows :=
      hfits
    have hcomes : m.current? ≠ none → ticks waited = .comes := fun hi =>
      comes_of_fits hticks (hfits' 0 (by rw [if_neg hi]; decide))
    obtain ⟨e, hrun, hwaited, rfl, -, hmachine, hlog⟩ :=
      executeFrom_answers publish h hanswer hcomes fuel log
    have hlast : ticks e.waited ≠ .overflows := by
      rw [hwaited]
      refine hfits' _ ?_
      split <;> decide
    rw [hrun]
    refine (finish_ok publish (.inl hlast)).trans ?_
    rw [hmachine, hlog]
    rfl
  | k + 1, m, h, hstop, fuel + 1, hfuel, waited, log, hfits => by
    have hsilent : m.step.2.2 = none := hstop.silent 0 (Nat.succ_pos k)
    obtain ⟨hrunning, -⟩ := running_of_silent h hsilent
    rw [waits_succ, fits_succ] at hfits
    obtain ⟨hfirst, hrest⟩ := hfits
    have hnext := executeFrom_stops hrunning hstop.next (Nat.lt_of_succ_lt_succ hfuel) (waited + 1)
      (m.step.2.1.foldl publish log) hrest
    rw [executeFrom_silent publish h hsilent (comes_of_fits hticks hfirst), hnext,
      Nat.add_comm (k + 1) 1, after_one_add, eventsOf_one_add, List.foldl_append]

/-- **A run panics at the first tick that does not fit.** -/
theorem executeFrom_panics :
    ∀ {k : Nat} {m : Interpreter}, m.state ≠ .stopped → m.pacing ≠ .realTime →
      m.StopsAt k reason → ∀ {fuel : Nat}, k < fuel → ∀ (waited : Nat) (log : α),
        ¬ Fits ticks waited (m.waits k) →
        executeFrom publish ticks fuel waited log { m with state := .running } >>=
          finish publish ticks = .error .panicked
  | 0, m, h, hpacing, hstop, fuel + 1, _, waited, log, hfits => by
    have hanswer : m.step.2.2 = some reason := hstop.answers
    by_cases hfirst : m.current? ≠ none ∧ ticks waited = .overflows
    · rw [executeFrom_overflows publish hfirst.1 hfirst.2]
      rfl
    have hcomes : m.current? ≠ none → ticks waited = .comes := fun hi =>
      comes_of_fits hticks fun hoverflows => hfirst ⟨hi, hoverflows⟩
    obtain ⟨e, hrun, hwaited, rfl, hsame, -⟩ :=
      executeFrom_answers publish h hanswer hcomes fuel log
    have hlast : ticks e.waited = .overflows := by
      by_contra hlast
      refine hfits ?_
      rw [hwaited] at hlast
      by_cases hi : m.current? = none
      · rw [if_pos hi] at hlast
        rw [waits, after, if_pos hi]
        exact fits_one.mpr hlast
      · rw [if_neg hi] at hlast
        rw [waits, after, if_neg hi]
        refine fits_succ.mpr ⟨?_, fits_one.mpr hlast⟩
        rw [hcomes hi]
        exact nofun
    rw [hrun]
    refine finish_panicked publish hlast ?_ (by rwa [hsame])
    intro hcancelled
    rw [hcancelled] at hanswer
    exact step_ne_cancelled h hanswer
  | k + 1, m, h, hpacing, hstop, fuel + 1, hfuel, waited, log, hfits => by
    have hsilent : m.step.2.2 = none := hstop.silent 0 (Nat.succ_pos k)
    obtain ⟨hrunning, hi⟩ := running_of_silent h hsilent
    rw [waits_succ, fits_succ] at hfits
    by_cases hfirst : ticks waited = .overflows
    · rw [executeFrom_overflows publish hi hfirst]
      rfl
    · rw [executeFrom_silent publish h hsilent (comes_of_fits hticks hfirst)]
      exact executeFrom_panics hrunning (by rwa [pacing_step]) hstop.next
        (Nat.lt_of_succ_lt_succ hfuel) (waited + 1) _ fun hrest => hfits ⟨hfirst, hrest⟩

/-- **A run has no end if no step answers a reason**, and it panics if a tick does not fit. -/
theorem executeFrom_endless :
    ∀ (fuel : Nat) {m : Interpreter}, m.state ≠ .stopped → (∀ k, (m.after k).step.2.2 = none) →
      ∀ (waited : Nat) (log : α),
        executeFrom publish ticks fuel waited log { m with state := .running } =
          .error (if Fits ticks waited fuel then .unfinished else .panicked)
  | 0, _, _, _, _, _ => by
    rw [if_pos (fits_zero _ _)]
    rfl
  | fuel + 1, m, h, hsilent, waited, log => by
    have hfirst : m.step.2.2 = none := hsilent 0
    obtain ⟨hrunning, hi⟩ := running_of_silent h hfirst
    by_cases htick : ticks waited = .overflows
    · rw [executeFrom_overflows publish hi htick, if_neg fun hfits => (fits_succ.mp hfits).1 htick]
    · rw [executeFrom_silent publish h hfirst (comes_of_fits hticks htick),
        executeFrom_endless fuel hrunning
          (fun k => by rw [← after_one_add]; exact hsilent (1 + k)) (waited + 1)]
      simp only [fits_succ, ne_eq, htick, not_false_eq_true, true_and]

end Loop

/-! ### Runs -/

/-- What a run answers that is cancelled before it begins. -/
def outset (m : Interpreter) : StopReason :=
  if m.memory.size ≤ m.counter then .endOfProgram else .cancelled

/-- A run that is granted no tick makes no instruction. It panics if it waits for a tick that does
not fit. -/
theorem executeWith_cancelled (hticks : ticks 0 ≠ .comes)
    (hreal : m.pacing = .realTime → ticks 0 ≠ .overflows) (fuel : Nat) (log : α) :
    m.executeWith publish ticks fuel log =
      if Fits ticks 0 1 then
        .ok (m.stop m.outset, [.started, .stopped m.outset].foldl publish log, m.outset)
      else .error .panicked := by
  have hcurrent : current? { m with state := .running } = m.memory[m.counter]? := rfl
  rw [executeWith, executeFrom, hcurrent]
  by_cases hend : m.memory.size ≤ m.counter
  · have houtset : m.outset = .endOfProgram := if_pos hend
    rw [Array.getElem?_eq_none hend, houtset]
    by_cases hfits : ticks 0 = .overflows
    · rw [if_neg fun hall => fits_one.mp hall hfits]
      exact finish_panicked publish hfits nofun fun hpacing => hreal hpacing hfits
    · rw [if_pos (fits_one.mpr hfits)]
      exact finish_ok publish (.inl hfits)
  · have houtset : m.outset = .cancelled := if_neg hend
    rw [Array.getElem?_eq_getElem (Nat.lt_of_not_le hend), houtset]
    cases htick : ticks 0 with
    | comes => exact absurd htick hticks
    | overflows =>
      rw [if_neg fun hall => fits_one.mp hall htick]
      rfl
    | cancelled =>
      rw [if_pos (fits_one.mpr (by rw [htick]; exact nofun))]
      show finish publish ticks
        ⟨1, { m with state := .running }, publish log .started, .cancelled⟩ = _
      exact finish_ok publish (.inr rfl)

/-- A run in real time has no tick that does not fit. -/
theorem not_realTime_of_not_fits {clock : Clock} {cancellation : Cancellation} {first count : Nat}
    (h : ¬ Fits (m.pacing.ticks clock cancellation) first count) : m.pacing ≠ .realTime := by
  intro hreal
  rw [hreal] at h
  exact h (Pacing.fits_realTime clock cancellation first count)

/-- **A run does what single steps do.** A machine that has not stopped is run under any clock and
at any pace, and the run is not cancelled. If a step is the first to answer a reason, the run ends
with this reason and the machine behind that step, and has published its start and the events of the
steps. If no step answers a reason the run has no end. A run that is cancelled before it begins
leaves bank and counter as they are, and only says that it started and stopped. All of it goes for
runs whose ticks fit, and no other run answers anything. -/
theorem execute_follows_steps (m : Interpreter) (h : m.state ≠ .stopped) (clock : Clock)
    (fuel : Nat) (log : α) :
    (∀ k reason, m.StopsAt k reason → k ≤ fuel →
      m.executeUntil publish clock .never fuel log =
        if Fits (m.pacing.ticks clock .never) 0 (m.waits k) then
          .ok (m.after (k + 1), (.started :: m.eventsOf (k + 1)).foldl publish log, reason)
        else .error .panicked) ∧
    ((∀ k, (m.after k).step.2.2 = none) →
      m.executeUntil publish clock .never fuel log =
        .error (if Fits (m.pacing.ticks clock .never) 0 (fuel + 1) then .unfinished
          else .panicked)) ∧
    ∀ cancellation, cancellation.isReached (clock.shows 0) = true →
      m.executeUntil publish clock cancellation fuel log =
        if Fits (m.pacing.ticks clock cancellation) 0 1 then
          .ok (m.stop m.outset, [.started, .stopped m.outset].foldl publish log, m.outset)
        else .error .panicked := by
  have hnever := m.pacing.ticks_never clock
  refine ⟨fun k reason hstop hfuel => ?_, fun hsilent => ?_, fun cancellation hreached => ?_⟩
  · have hlt : k < fuel + 1 := Nat.lt_succ_of_le hfuel
    by_cases hfits : Fits (m.pacing.ticks clock .never) 0 (m.waits k)
    · rw [if_pos hfits]
      exact executeFrom_stops publish hnever h hstop hlt 0 _ hfits
    · rw [if_neg hfits]
      exact executeFrom_panics publish hnever h (not_realTime_of_not_fits hfits) hstop hlt 0 _ hfits
  · rw [executeUntil, executeWith, executeFrom_endless publish hnever (fuel + 1) h hsilent 0]
    rfl
  · refine executeWith_cancelled publish (m.pacing.ticks_cancelled hreached 0) (fun hreal => ?_)
      fuel log
    have hfits := Pacing.fits_realTime clock cancellation 0 1
    rw [hreal]
    exact fits_one.mp hfits

/-- A clock that has gone on by a nanosecond whenever it is looked at. -/
def looked : Clock := ⟨id, id⟩

/-- It doubles a number, and halts. -/
def doubling : Interpreter where
  memory := #[⟨.load, some (.operand (.immediate 2) {}), {}⟩,
    ⟨.add, some (.operand (.register 0) {}), {}⟩, ⟨.halt, none, {}⟩]

/-- It jumps to itself. -/
def spinning : Interpreter where
  memory := #[⟨.goto, some (.reference "SPIN" (some ⟨"SPIN", 0, {}⟩) {}), {}⟩]
  pacing := .realTime

theorem after_spinning (k : Nat) : spinning.after k = spinning := by
  induction k with
  | zero => rfl
  | succ k ih => rw [after_succ, ih]; rfl

/-- The doubling machine stops in its third step, the spinning one never does. -/
theorem doubling_follows_steps : doubling.state ≠ .stopped ∧ doubling.StopsAt 2 .halted ∧
    doubling.executeUntil (fun log e => log ++ [e]) looked .never 2 [] =
      .ok (doubling.after 3, [.started, .stepped 0, .changed 0 2, .stepped 1, .changed 0 4,
        .stepped 2, .stopped .halted], .halted) ∧
    doubling.executeUntil (fun log e => log ++ [e]) looked ⟨some 0⟩ 2 [] =
      .ok (doubling.stop .cancelled, [.started, .stopped .cancelled], .cancelled) ∧
    spinning.state ≠ .stopped ∧
    ∀ fuel, spinning.executeUntil (fun log e => log ++ [e]) looked .never fuel [] =
      .error .unfinished := by
  have hstop : doubling.StopsAt 2 .halted := ⟨by decide, rfl⟩
  obtain ⟨hrun, -, hcancelled⟩ :=
    execute_follows_steps (fun log e => log ++ [e]) doubling nofun looked 2 []
  refine ⟨nofun, hstop, (hrun 2 .halted hstop (Nat.le_refl 2)).trans (if_pos (by decide)),
    (hcancelled ⟨some 0⟩ rfl).trans (if_pos (by decide)), nofun, fun fuel => ?_⟩
  have hsilent : ∀ k, (spinning.after k).step.2.2 = none := fun k => by rw [after_spinning]; rfl
  have hrun := (execute_follows_steps (fun log e => log ++ [e]) spinning nofun looked fuel []).2.1
    hsilent
  have hfits := Pacing.fits_realTime looked .never 0 (fuel + 1)
  exact hrun.trans (congrArg Except.error (if_pos hfits))

/-- It halts at once, at a tenth of a millionth of a millionth of a millionth of an instruction a
second. -/
def eternal : Interpreter where
  memory := #[⟨.halt, none, {}⟩]
  pacing := .clocked (10000000000000000000 * Pacing.nanosPerSecond)

/-- **A run that never answers** although the first step does. A duration can hold the period, but
no instant is that far away. The run panics before it looks whether it is cancelled. -/
theorem eternal_panics : eternal.state ≠ .stopped ∧ eternal.step.2.2 = some .halted ∧
    eternal.StopsAt 0 .halted ∧
    10000000000000000000 * Pacing.nanosPerSecond < Pacing.durationLimit ∧
    (∀ fuel, eternal.executeUntil (fun log e => log ++ [e]) looked .never fuel [] =
      .error .panicked) ∧
    ∀ fuel, eternal.executeUntil (fun log e => log ++ [e]) looked ⟨some 0⟩ fuel [] =
      .error .panicked :=
  ⟨nofun, rfl, ⟨nofun, rfl⟩, by decide, fun _ => rfl, fun _ => rfl⟩

/-! ### Steady clocks -/

/-- A run makes of its ticks what it waits for. -/
theorem executeFrom_congr {ticks' : Nat → Tick} :
    ∀ {fuel waited : Nat}, (∀ k, k < waited + fuel → ticks k = ticks' k) →
      ∀ (log : α) (m : Interpreter), executeFrom publish ticks fuel waited log m =
        executeFrom publish ticks' fuel waited log m
  | 0, _, _, _, _ => rfl
  | fuel + 1, waited, h, log, m => by
    rw [executeFrom, executeFrom, h waited (by omega)]
    have hrest : ∀ k, k < waited + 1 + fuel → ticks k = ticks' k := fun k hk => h k (by omega)
    cases m.current? with
    | none => rfl
    | some i =>
      dsimp only
      cases ticks' waited with
      | overflows | cancelled => rfl
      | comes =>
        rcases m.advance i with ⟨m', events, _ | reason⟩
        · exact executeFrom_congr hrest _ m'
        · rfl

theorem waited_le {e : Halted α} :
    ∀ {fuel waited : Nat} {log : α} {m : Interpreter},
      executeFrom publish ticks fuel waited log m = .ok e → e.waited ≤ waited + fuel
  | 0, _, _, _, h => by cases h
  | fuel + 1, waited, log, m, h => by
    rw [executeFrom] at h
    split at h
    · cases h
      exact Nat.le_add_right _ _
    · split at h
      · cases h
      · cases h
        dsimp only
        omega
      · split at h
        · cases h
          dsimp only
          omega
        · have hle := waited_le h
          omega

/-- **A run that begins at instant zero is one on a steady clock**, for all the instructions that
such a clock can pace. -/
theorem execute_paced (m : Interpreter) (cancellation : Cancellation) {fuel : Nat}
    (hfuel : (fuel + 2) * shortestInstruction < instantLimit) (log : α) :
    m.execute publish cancellation fuel log =
      m.executeUntil publish (.steady m.pacing.period) cancellation fuel log := by
  have hticks : ∀ k, k < fuel + 2 →
      m.pacing.ticks (.steady m.pacing.period) cancellation k = m.pacing.paced cancellation k := by
    intro k hk
    refine Pacing.ticks_steady cancellation m.pacing (Nat.lt_of_le_of_lt ?_ hfuel)
    exact Nat.mul_le_mul_right _ hk
  rw [execute, executeUntil, executeWith, executeWith]
  have hloop : ∀ k, k < 0 + (fuel + 1) → m.pacing.ticks (.steady m.pacing.period) cancellation k =
      m.pacing.paced cancellation k := fun k hk => hticks k (by omega)
  rw [executeFrom_congr publish hloop]
  cases hrun : executeFrom publish (m.pacing.paced cancellation) (fuel + 1) 0
      (publish log .started) { m with state := .running } with
  | error e => rfl
  | ok e =>
    have hle := waited_le publish hrun
    show finish publish _ e = finish publish _ e
    rw [finish, finish, hticks e.waited (by omega)]

end Interpreter

end RegisterMachine.Machine
