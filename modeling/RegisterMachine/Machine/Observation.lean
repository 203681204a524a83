import RegisterMachine.Machine.Interpreter

/-! # Watching a machine

A bench is an interpreter with observers. An observer has a box into which the events of the
interpreter are posted from its subscription on. It takes them out when it likes, and may leave. A
box outlives the interpreter that posted to it.

* `Observers.publish`: an event to every observer of the interpreter. Those who have left are
  forgotten then.
* `Observers.collect`: the events waiting in a box, which is empty afterwards.
* `Bench.step`, `Bench.executeWith`, `Bench.load`: the interpreter's operations, their events
  published. -/

namespace RegisterMachine.Machine

structure Observers where
  /-- The boxes to which the interpreter posts. -/
  subscribers : List Nat := []
  /-- The events that wait in each box; nothing where the observer has left. -/
  boxes : Array (Option (Array Event)) := #[]
deriving DecidableEq, Repr

namespace Observers

/-- A new observer, with the number of its box. -/
def subscribe (o : Observers) : Observers × Nat :=
  ({ subscribers := o.subscribers ++ [o.boxes.size], boxes := o.boxes.push (some #[]) },
    o.boxes.size)

/-- The observer of a box leaves. The interpreter does not notice until it publishes. -/
def leave (o : Observers) (box : Nat) : Observers :=
  { o with boxes := o.boxes.setIfInBounds box none }

/-- Somebody has this box. -/
def isHeld (o : Observers) (box : Nat) : Bool := (o.boxes[box]?.getD none).isSome

/-- An event into the boxes of some observers. -/
def post (subscribers : List Nat) (boxes : Array (Option (Array Event))) (e : Event) :
    Array (Option (Array Event)) :=
  subscribers.foldl (fun boxes box => boxes.modify box (·.map (·.push e))) boxes

/-- **Publish an event** to every subscriber who is still there, and forget the others. -/
def publish (o : Observers) (e : Event) : Observers :=
  let there := o.subscribers.filter o.isHeld
  { subscribers := there, boxes := post there o.boxes e }

/-- **The waiting events of a box**, taken out; nothing if nobody has this box. -/
def collect (o : Observers) (box : Nat) : Observers × Option (List Event) :=
  match o.boxes[box]? with
  | some (some events) =>
    ({ o with boxes := o.boxes.setIfInBounds box (some #[]) }, some events.toList)
  | _ => (o, none)

end Observers

structure Bench where
  interpreter : Interpreter := {}
  observers : Observers := {}

namespace Bench

/-- Another interpreter, which nobody watches yet. -/
def replace (b : Bench) (m : Interpreter) : Bench :=
  { interpreter := m, observers := { b.observers with subscribers := [] } }

/-- A new observer, with the number of its box. -/
def subscribe (b : Bench) : Bench × Nat :=
  let (observers, box) := b.observers.subscribe
  ({ b with observers }, box)

/-- The observer of a box leaves. -/
def leave (b : Bench) (box : Nat) : Bench := { b with observers := b.observers.leave box }

/-- The waiting events of a box, taken out. -/
def collect (b : Bench) (box : Nat) : Bench × Option (List Event) :=
  let (observers, events) := b.observers.collect box
  ({ b with observers }, events)

/-- A program for the interpreter; if it is refused, nothing changes. -/
def load (b : Bench) (program : Assembly.Program) (registers : Nat) :
    Bench × Option SettingsError :=
  match b.interpreter.load program registers with
  | .ok m => ({ b with interpreter := m }, none)
  | .error e => (b, some e)

/-- One step of the interpreter. -/
def step (b : Bench) : Bench × Option StopReason :=
  let (m, events, reason) := b.interpreter.step
  ({ interpreter := m, observers := events.foldl Observers.publish b.observers }, reason)

/-- Several steps, with what each answers. -/
def steps : (count : Nat) → Bench → Bench × List (Option StopReason)
  | 0, b => (b, [])
  | count + 1, b =>
    let (b, reason) := b.step
    let (b, reasons) := steps count b
    (b, reason :: reasons)

/-- A run of the interpreter whose waits come to these ticks. -/
def executeWith (b : Bench) (ticks : Nat → Tick) (fuel : Nat) :
    Except RunFailure (Bench × StopReason) :=
  (b.interpreter.executeWith Observers.publish ticks fuel b.observers).map
    fun (interpreter, observers, reason) => ({ interpreter, observers }, reason)

/-- A run of the interpreter that begins at instant zero. -/
def execute (b : Bench) (cancellation : Cancellation) (fuel : Nat) :
    Except RunFailure (Bench × StopReason) :=
  b.executeWith (b.interpreter.pacing.paced cancellation) fuel

end Bench

end RegisterMachine.Machine
