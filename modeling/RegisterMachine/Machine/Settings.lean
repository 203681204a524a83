import RegisterMachine.Decimal.Shortest
import RegisterMachine.Machine.Bank

/-! # Settings of a machine

A host chooses the number of general registers and how fast the machine runs: without delay, or at
so many instructions a second.

* `checkCount`: a machine has at most `maxRegisters` general registers.
* `Pacing.ofSpeed`: the period of a clock, to the nearest nanosecond; a period that no duration can
  hold is not refused, it makes the host panic.
* `Settings.pacing`: both checks, the registers first. -/

namespace RegisterMachine.Machine

/-- What can be wrong with the settings. -/
inductive SettingsError
  | registerCount (count : Nat)
  | speed (speed : Float)

def SettingsError.message : SettingsError → String
  | registerCount count =>
    s!"invalid register count {count}: a machine has at most {maxRegisters} general registers"
  | speed value =>
    s!"invalid clock speed {Decimal.text value} Hz: must be a positive number"

/-- Why settings describe no machine. -/
inductive SettingsFailure
  | refused (error : SettingsError)
  /-- The period is longer than a duration can be. -/
  | panicked

/-- A number of general registers that a machine can have. -/
def checkCount (general : Nat) : Except SettingsError Unit :=
  if maxRegisters < general then .error (.registerCount general) else .ok ()

inductive Pacing
  | realTime
  /-- One instruction every so many nanoseconds. -/
  | clocked (period : Nat)
deriving DecidableEq, Repr

namespace Pacing

def nanosPerSecond : Nat := 1000000000

/-- Durations count whole seconds in 64 bits. -/
def durationLimit : Nat := 18446744073709551616 * nanosPerSecond

/-- **The clock of a speed** in instructions a second, which must be positive and finite. -/
def ofSpeed (speed : Float) : Except SettingsFailure Pacing :=
  if speed.isFinite && 0 < speed then
    let seconds := 1 / speed
    if seconds.isFinite then
      let period := (Decimal.Binary.ofFloat seconds).scaled nanosPerSecond
      if period < durationLimit then .ok (.clocked period) else .error .panicked
    else .error .panicked
  else .error (.refused (.speed speed))

end Pacing

structure Settings where
  /-- The general registers; the accumulator comes on top. -/
  registers : Nat := 5
  /-- Instructions a second. -/
  speed : Float := 1
  /-- No delay between instructions. -/
  realTime : Bool := false

/-- **The pacing that the settings describe.** -/
def Settings.pacing (s : Settings) : Except SettingsFailure Pacing :=
  match checkCount s.registers with
  | .error e => .error (.refused e)
  | .ok () => if s.realTime then .ok .realTime else Pacing.ofSpeed s.speed

end RegisterMachine.Machine
