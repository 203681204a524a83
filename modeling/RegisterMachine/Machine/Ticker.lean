import RegisterMachine.Machine.Settings

/-! # The pace of a run

Before each instruction a run waits for a tick. A clocked run is given one every period, and makes
up for no tick that it missed; a run in real time never waits. While it waits, and behind each tick,
a run finds out whether the host has cancelled it. A tick that would be due behind the last instant
makes the run panic, before it finds out anything.

* `Ticker.tick`: the wait for one tick, and what it comes to.
* `Pacing.ticks`: what all the waits of a run come to, on any clock.
* `Pacing.paced`: the same on a clock on which all instructions take the same time, without looking
  at the clock. -/

namespace RegisterMachine.Machine

/-- Instants count whole seconds in 63 bits. -/
def instantLimit : Nat := 9223372036854775808 * Pacing.nanosPerSecond

/-- A clock, by the nanosecond that it shows when it is looked at for the `k`-th time. -/
structure Clock where
  shows : Nat → Nat
  monotone : ∀ {i j : Nat}, i ≤ j → shows i ≤ shows j

/-- The host's way to end a run: the nanosecond at which it is cancelled, if it ever is. -/
structure Cancellation where
  moment : Option Nat
deriving DecidableEq, Repr

namespace Cancellation

/-- A run that is never cancelled. -/
def never : Cancellation := ⟨none⟩

/-- The run is cancelled by now. Once it is, it remains so. -/
def isReached (c : Cancellation) (time : Nat) : Bool := c.moment.any (· ≤ time)

@[simp] theorem isReached_never (time : Nat) : never.isReached time = false := rfl

theorem isReached_mono {c : Cancellation} {time later : Nat} (h : time ≤ later)
    (hc : c.isReached time = true) : c.isReached later = true := by
  obtain ⟨_ | moment⟩ := c
  · cases hc
  · simp only [isReached, Option.any_some, decide_eq_true_eq] at hc ⊢
    omega

end Cancellation

/-- What the wait for a tick comes to. -/
inductive Tick
  | comes
  /-- The run is cancelled instead. -/
  | cancelled
  /-- No clock can show the instant at which the tick is due. -/
  | overflows
deriving DecidableEq, Repr

/-- The tick comes unless the run is cancelled. -/
def Tick.ofCancelled (cancelled : Bool) : Tick := bif cancelled then .cancelled else .comes

/-- The ticker of a run, with the instant at which its last tick was due. -/
structure Ticker where
  pacing : Pacing
  due : Nat
deriving DecidableEq, Repr

/-- **The wait for tick `k` of a run**, counted from zero. The clock is looked at when the wait
begins and when it is over. The tick comes unless the run is cancelled by then. -/
def Ticker.tick (t : Ticker) (clock : Clock) (cancellation : Cancellation) (k : Nat) :
    Ticker × Tick :=
  let now := clock.shows (2 * k + 1)
  let later := clock.shows (2 * k + 2)
  match t.pacing with
  | .realTime => (t, .ofCancelled (cancellation.isReached later))
  | .clocked period =>
    let due := t.due + period
    if instantLimit ≤ due then (t, .overflows)
    else if now < due then ({ t with due }, .ofCancelled (cancellation.isReached (max due later)))
    else ({ t with due := now }, .ofCancelled (cancellation.isReached later))

namespace Pacing

/-- The ticker of a run behind so many ticks. The clock is first looked at when the run begins. -/
def ticker (p : Pacing) (clock : Clock) (cancellation : Cancellation) : Nat → Ticker
  | 0 => ⟨p, clock.shows 0⟩
  | k + 1 => ((p.ticker clock cancellation k).tick clock cancellation k).1

/-- **What the wait for tick `k` of a run comes to.** -/
def ticks (p : Pacing) (clock : Clock) (cancellation : Cancellation) (k : Nat) : Tick :=
  ((p.ticker clock cancellation k).tick clock cancellation k).2

end Pacing

/-- Nanoseconds that an instruction takes at least. -/
def shortestInstruction : Nat := 100

namespace Pacing

/-- Nanoseconds between two instructions. -/
def period : Pacing → Nat
  | .realTime => shortestInstruction
  | .clocked period => max period shortestInstruction

/-- Tick `k` is due behind the last instant, in a run that begins at instant zero. -/
def overflowsAt : Pacing → Nat → Bool
  | .realTime, _ => false
  | .clocked period, k => instantLimit ≤ (k + 1) * max period shortestInstruction

/-- **The ticks of a run that begins at instant zero**, and in which one instruction after the other
takes a period. -/
def paced (p : Pacing) (cancellation : Cancellation) (k : Nat) : Tick :=
  if p.overflowsAt k then .overflows
  else .ofCancelled (cancellation.isReached ((k + 1) * p.period))

end Pacing

end RegisterMachine.Machine
