import RegisterMachine.Machine.Ticker

/-! # The ticks of a run

What the waits of a run come to depends on its pace, on the clock and on when it is cancelled. They
come to nothing at all if a tick is due behind the last instant.

* `Fits`: so many ticks are due before the last instant.
* `fits_of_lt`: when they are; `overflows_of_le`: a period that no instant can hold.
* `ticks_steady`: on a clock on which all instructions take the same time the ticks of a run are
  foreseen by `Pacing.paced`. -/

namespace RegisterMachine.Machine

/-- **So many ticks fit**, the first of them included: none of them is due behind the last
instant. -/
def Fits (ticks : Nat → Tick) (first count : Nat) : Prop :=
  ∀ j < count, ticks (first + j) ≠ .overflows

instance (ticks : Nat → Tick) (first count : Nat) : Decidable (Fits ticks first count) :=
  inferInstanceAs (Decidable (∀ j < count, ticks (first + j) ≠ .overflows))

theorem fits_zero (ticks : Nat → Tick) (first : Nat) : Fits ticks first 0 := fun _ hj => nomatch hj

theorem fits_succ {ticks : Nat → Tick} {first count : Nat} :
    Fits ticks first (count + 1) ↔ ticks first ≠ .overflows ∧ Fits ticks (first + 1) count := by
  constructor
  · intro h
    refine ⟨h 0 (Nat.succ_pos _), fun j hj => ?_⟩
    rw [Nat.add_assoc, Nat.add_comm 1 j]
    exact h (j + 1) (Nat.succ_lt_succ hj)
  · rintro ⟨hfirst, hrest⟩ (_ | j) hj
    · exact hfirst
    · rw [Nat.add_comm j 1, ← Nat.add_assoc]
      exact hrest j (Nat.lt_of_succ_lt_succ hj)

theorem fits_one {ticks : Nat → Tick} {first : Nat} :
    Fits ticks first 1 ↔ ticks first ≠ .overflows :=
  fits_succ.trans (and_iff_left (fits_zero _ _))

namespace Tick

@[simp] theorem ofCancelled_true : ofCancelled true = .cancelled := rfl

@[simp] theorem ofCancelled_false : ofCancelled false = .comes := rfl

theorem ofCancelled_ne_overflows (cancelled : Bool) : ofCancelled cancelled ≠ .overflows := by
  cases cancelled <;> exact nofun

end Tick

namespace Ticker

variable {t : Ticker} {clock : Clock} {cancellation : Cancellation} {k : Nat}

/-- **What one wait comes to**: it overflows, or the tick comes or is cancelled at some instant
behind the wait. -/
theorem tick_cases (t : Ticker) (clock : Clock) (cancellation : Cancellation) (k : Nat) :
    (∃ period, t.pacing = .clocked period ∧ instantLimit ≤ t.due + period ∧
      t.tick clock cancellation k = (t, .overflows)) ∨
    (t.pacing = .realTime ∧ t.tick clock cancellation k =
      (t, .ofCancelled (cancellation.isReached (clock.shows (2 * k + 2))))) ∨
    ∃ period due time, t.pacing = .clocked period ∧ t.due + period < instantLimit ∧
      due = max (t.due + period) (clock.shows (2 * k + 1)) ∧
      clock.shows (2 * k + 2) ≤ time ∧ time ≤ max due (clock.shows (2 * k + 2)) ∧
      t.tick clock cancellation k =
        (⟨t.pacing, due⟩, .ofCancelled (cancellation.isReached time)) := by
  obtain ⟨_ | period, start⟩ := t
  · exact .inr (.inl ⟨rfl, rfl⟩)
  · by_cases hlimit : instantLimit ≤ start + period
    · exact .inl ⟨period, rfl, hlimit, by simp only [tick, if_pos hlimit]⟩
    · refine .inr (.inr ⟨period, _, if clock.shows (2 * k + 1) < start + period then
        max (start + period) (clock.shows (2 * k + 2)) else clock.shows (2 * k + 2), rfl,
        Nat.lt_of_not_le hlimit, rfl, ?_, ?_, ?_⟩)
      · split
        · exact Nat.le_max_right _ _
        · exact Nat.le_refl _
      · split
        · dsimp only
          omega
        · exact Nat.le_max_right _ _
      · simp only [tick, if_neg hlimit]
        by_cases hnow : clock.shows (2 * k + 1) < start + period
        · simp only [if_pos hnow, Nat.max_eq_left (Nat.le_of_lt hnow)]
        · simp only [if_neg hnow, Nat.max_eq_right (Nat.le_of_not_lt hnow)]

theorem pacing_tick : (t.tick clock cancellation k).1.pacing = t.pacing := by
  obtain ⟨_, -, -, h⟩ | ⟨-, h⟩ | ⟨_, _, _, -, -, -, -, -, h⟩ := t.tick_cases clock cancellation k
  all_goals rw [h]

end Ticker

namespace Pacing

variable {p : Pacing} {clock : Clock} {cancellation : Cancellation} {period : Nat}

theorem pacing_ticker (p : Pacing) (clock : Clock) (cancellation : Cancellation) (k : Nat) :
    (p.ticker clock cancellation k).pacing = p := by
  induction k with
  | zero => rfl
  | succ k ih => exact Ticker.pacing_tick.trans ih

/-! ### Ticks that do not come -/

/-- A run that is never cancelled is not cancelled, at whatever pace. -/
theorem ticks_never (p : Pacing) (clock : Clock) (k : Nat) :
    p.ticks clock .never k ≠ .cancelled := by
  rw [ticks]
  obtain ⟨_, -, -, h⟩ | ⟨-, h⟩ | ⟨_, _, _, -, -, -, -, -, h⟩ :=
    (p.ticker clock .never k).tick_cases clock .never k
  all_goals
    rw [h]
    exact nofun

/-- A run that is cancelled before it begins is granted no tick. -/
theorem ticks_cancelled (p : Pacing) (h : cancellation.isReached (clock.shows 0) = true) (k : Nat) :
    p.ticks clock cancellation k ≠ .comes := by
  have hreached : ∀ time, clock.shows (2 * k + 2) ≤ time → cancellation.isReached time = true :=
    fun time htime => Cancellation.isReached_mono
      (Nat.le_trans (clock.monotone (Nat.zero_le _)) htime) h
  rw [ticks]
  obtain ⟨_, -, -, htick⟩ | ⟨-, htick⟩ | ⟨_, _, time, -, -, -, htime, -, htick⟩ :=
    (p.ticker clock cancellation k).tick_cases clock cancellation k
  · rw [htick]
    exact nofun
  · rw [htick, hreached _ (Nat.le_refl _)]
    exact nofun
  · rw [htick, hreached time htime]
    exact nofun

/-! ### Ticks that fit -/

/-- A run in real time waits for no instant. -/
theorem fits_realTime (clock : Clock) (cancellation : Cancellation) (first count : Nat) :
    Fits (Pacing.realTime.ticks clock cancellation) first count := by
  intro j _
  have hpacing := pacing_ticker .realTime clock cancellation (first + j)
  obtain ⟨_, hclocked, -⟩ | ⟨-, h⟩ | ⟨_, _, _, hclocked, -⟩ :=
    (realTime.ticker clock cancellation (first + j)).tick_cases clock cancellation (first + j)
  · cases hpacing.symm.trans hclocked
  · rw [ticks, h]
    exact Tick.ofCancelled_ne_overflows _
  · cases hpacing.symm.trans hclocked

/-- The ticks of a run are not due later than if it had waited for each of them. -/
theorem due_le (clock : Clock) (cancellation : Cancellation) (period k : Nat) :
    ((clocked period).ticker clock cancellation k).due ≤ clock.shows (2 * k) + k * period := by
  induction k with
  | zero => exact Nat.le_add_right _ _
  | succ k ih =>
    have hpacing := pacing_ticker (.clocked period) clock cancellation k
    have hlater : clock.shows (2 * k) ≤ clock.shows (2 * (k + 1)) := clock.monotone (by omega)
    have hnow : clock.shows (2 * k + 1) ≤ clock.shows (2 * (k + 1)) := clock.monotone (by omega)
    have hmul : (k + 1) * period = k * period + period := Nat.succ_mul k period
    rw [ticker]
    obtain ⟨_, -, -, h⟩ | ⟨hreal, -⟩ | ⟨period', due, _, hclocked, -, rfl, -, -, h⟩ :=
      ((clocked period).ticker clock cancellation k).tick_cases clock cancellation k
    · rw [h]
      dsimp only
      omega
    · cases hpacing.symm.trans hreal
    · cases hpacing.symm.trans hclocked
      rw [h]
      dsimp only
      omega

/-- **The ticks of a run fit** if the clock shows early enough an instant. -/
theorem fits_of_lt {count : Nat} (h : clock.shows (2 * count) + count * period < instantLimit) :
    Fits ((clocked period).ticks clock cancellation) 0 count := by
  intro j hj
  rw [Nat.zero_add, ticks]
  have hpacing := pacing_ticker (.clocked period) clock cancellation j
  have hdue := due_le clock cancellation period j
  have hshows : clock.shows (2 * j) ≤ clock.shows (2 * count) := clock.monotone (by omega)
  have hmul : j * period + period ≤ count * period := by
    rw [← Nat.succ_mul]
    exact Nat.mul_le_mul_right period hj
  obtain ⟨period', hclocked, hlimit, -⟩ | ⟨hreal, -⟩ | ⟨_, _, _, -, -, -, -, -, htick⟩ :=
    ((clocked period).ticker clock cancellation j).tick_cases clock cancellation j
  · cases hpacing.symm.trans hclocked
    omega
  · cases hpacing.symm.trans hreal
  · rw [htick]
    exact Tick.ofCancelled_ne_overflows _

/-- **No tick fits** if no instant can hold the period. -/
theorem overflows_of_le (h : instantLimit ≤ period) (clock : Clock) (cancellation : Cancellation)
    (k : Nat) : (clocked period).ticks clock cancellation k = .overflows := by
  have hpacing := pacing_ticker (.clocked period) clock cancellation k
  rw [ticks]
  obtain ⟨_, -, -, htick⟩ | ⟨hreal, -⟩ | ⟨period', _, _, hclocked, hlt, -⟩ :=
    ((clocked period).ticker clock cancellation k).tick_cases clock cancellation k
  · rw [htick]
  · cases hpacing.symm.trans hreal
  · cases hpacing.symm.trans hclocked
    omega

end Pacing

/-! ### Steady clocks -/

/-- **A steady clock** begins at instant zero, and shows that one instruction after the other takes
a period. -/
def Clock.steady (period : Nat) : Clock where
  shows k := k / 2 * period
  monotone h := Nat.mul_le_mul_right period (Nat.div_le_div_right h)

theorem Clock.shows_steady (period k : Nat) :
    (Clock.steady period).shows (2 * k + 1) = k * period ∧
      (Clock.steady period).shows (2 * k + 2) = (k + 1) * period := by
  constructor
  · show (2 * k + 1) / 2 * period = k * period
    rw [show (2 * k + 1) / 2 = k by omega]
  · show (2 * k + 2) / 2 * period = (k + 1) * period
    rw [show (2 * k + 2) / 2 = k + 1 by omega]

namespace Pacing

section Steady

variable (period : Nat) (cancellation : Cancellation) (k : Nat)

/-- The instant at which the last of `k` ticks was due, on a steady clock. -/
def steadyDue : Nat :=
  ((clocked period).ticker (.steady (clocked period).period) cancellation k).due

/-- **A tick on a steady clock**: it overflows and leaves the ticker as it is, or it is due as soon
as the period is over and the clock shows it. -/
theorem steadyDue_succ :
    (instantLimit ≤ steadyDue period cancellation k + period ∧
      steadyDue period cancellation (k + 1) = steadyDue period cancellation k) ∨
    steadyDue period cancellation (k + 1) =
      max (steadyDue period cancellation k + period) (k * (clocked period).period) := by
  have hpacing := pacing_ticker (.clocked period) (.steady (clocked period).period) cancellation k
  obtain ⟨_, hclocked, hlimit, h⟩ | ⟨hreal, -⟩ | ⟨_, due, _, hclocked, -, rfl, -, -, h⟩ :=
    ((clocked period).ticker (.steady (clocked period).period) cancellation k).tick_cases
      (.steady (clocked period).period) cancellation k
  · cases hpacing.symm.trans hclocked
    exact .inl ⟨hlimit, congrArg (·.1.due) h⟩
  · cases hpacing.symm.trans hreal
  · cases hpacing.symm.trans hclocked
    rw [(Clock.shows_steady _ _).1] at h
    exact .inr (congrArg (·.1.due) h)

theorem steadyDue_le : steadyDue period cancellation k ≤ k * (clocked period).period := by
  induction k with
  | zero => exact Nat.le_refl _
  | succ k ih =>
    have hperiod : period ≤ (clocked period).period := Nat.le_max_left _ _
    have hmul : (k + 1) * (clocked period).period = k * (clocked period).period +
      (clocked period).period := Nat.succ_mul k _
    obtain ⟨-, h⟩ | h := steadyDue_succ period cancellation k
    · rw [h]
      omega
    · rw [h]
      omega

variable {period}

/-- A period that is waited for is made up of no longer ones, until a tick overflows. -/
theorem steadyDue_of_le (hperiod : shortestInstruction ≤ period) :
    steadyDue period cancellation k = k * period ∨
      instantLimit ≤ steadyDue period cancellation k + period := by
  have heq : (clocked period).period = period := Nat.max_eq_left hperiod
  induction k with
  | zero => exact .inl ((Nat.zero_mul _).trans (Nat.zero_mul period).symm)
  | succ k ih =>
    obtain ⟨hlimit, h⟩ | h := steadyDue_succ period cancellation k
    · exact .inr (by rw [h]; exact hlimit)
    · have hmul : (k + 1) * period = k * period + period := Nat.succ_mul k period
      rw [heq] at h
      rw [h]
      omega

variable {k}

/-- A tick on a steady clock overflows as foreseen. -/
theorem steadyDue_overflows (hk : (k + 1) * shortestInstruction < instantLimit) :
    instantLimit ≤ steadyDue period cancellation k + period ↔
      (clocked period).overflowsAt k = true := by
  have hle := steadyDue_le period cancellation k
  have hmul : ∀ q, (k + 1) * q = k * q + q := Nat.succ_mul k
  rw [overflowsAt, decide_eq_true_eq]
  by_cases hperiod : shortestInstruction ≤ period
  · have heq : max period shortestInstruction = period := Nat.max_eq_left hperiod
    have hdue := steadyDue_of_le cancellation k hperiod
    rw [show (clocked period).period = period from heq] at hle
    rw [heq, hmul]
    omega
  · have heq : max period shortestInstruction = shortestInstruction :=
      Nat.max_eq_right (Nat.le_of_not_le hperiod)
    rw [show (clocked period).period = shortestInstruction from heq] at hle
    rw [hmul] at hk
    rw [heq, hmul]
    omega

/-- **The ticks on a steady clock are foreseen.** A run that never waits for its period makes the
shortest instructions, so this is proved until the last instant would be behind them. -/
theorem ticks_steady (p : Pacing) (hk : (k + 1) * shortestInstruction < instantLimit) :
    p.ticks (.steady p.period) cancellation k = p.paced cancellation k := by
  have hlater := (Clock.shows_steady p.period k).2
  cases p with
  | realTime =>
    have hpacing := pacing_ticker .realTime (.steady realTime.period) cancellation k
    obtain ⟨_, hclocked, -⟩ | ⟨-, h⟩ | ⟨_, _, _, hclocked, -⟩ :=
      (realTime.ticker (.steady realTime.period) cancellation k).tick_cases
        (.steady realTime.period) cancellation k
    · cases hpacing.symm.trans hclocked
    · rw [ticks, h, hlater]
      rfl
    · cases hpacing.symm.trans hclocked
  | clocked period =>
    have hpacing := pacing_ticker (.clocked period) (.steady (clocked period).period) cancellation k
    have hle : ((clocked period).ticker _ cancellation k).due ≤ _ :=
      steadyDue_le period cancellation k
    have hoverflows : instantLimit ≤ ((clocked period).ticker _ cancellation k).due + period ↔ _ :=
      steadyDue_overflows cancellation hk
    obtain ⟨_, hclocked, hlimit, h⟩ | ⟨hreal, -⟩ |
        ⟨_, due, time, hclocked, hlimit, hdue, hafter, hbefore, h⟩ :=
      ((clocked period).ticker (.steady (clocked period).period) cancellation k).tick_cases
        (.steady (clocked period).period) cancellation k
    · cases hpacing.symm.trans hclocked
      rw [ticks, h, paced, if_pos (hoverflows.mp hlimit)]
    · cases hpacing.symm.trans hreal
    · cases hpacing.symm.trans hclocked
      have hperiod : period ≤ (clocked period).period := Nat.le_max_left _ _
      have hmul : (k + 1) * (clocked period).period = k * (clocked period).period +
        (clocked period).period := Nat.succ_mul k _
      have htime : time = (k + 1) * (clocked period).period := by
        rw [(Clock.shows_steady _ _).1] at hdue
        omega
      rw [ticks, h, paced, if_neg (mt hoverflows.mpr (Nat.not_le_of_lt hlimit)), htime]

end Steady

end Pacing

end RegisterMachine.Machine
