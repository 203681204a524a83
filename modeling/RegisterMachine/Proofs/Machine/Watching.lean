import RegisterMachine.Machine.Observation
import RegisterMachine.Proofs.Machine.RunLoop
import RegisterMachine.Proofs.Machine.Telling

/-! # Observers follow the machine

A host steps a machine, runs it, loads programs, and lets observers come and go. Who subscribes and
stays gets every event from then on, once and in order, whoever else is there. That is enough to
rebuild the machine's bank and to know which instructions it has executed.

* `Observers.Sound`: every subscriber has a box of its own.
* `Observers.Watches`: a subscriber whose box holds the events that it has not taken out yet.
* `Bench.perform`, `Bench.received`: what a host does, and what an observer gets.
* `Bench.perform_ok`: the machine does not depend on its observers.
* `observers_follow_machine`: the theorem. -/

namespace RegisterMachine.Machine

open RegisterMachine.Assembly

/-! ### Boxes -/

namespace Observers

variable {o : Observers} {box other : Nat} {events : List Event}

/-- Nobody is subscribed twice, and everybody has a box. -/
structure Sound (o : Observers) : Prop where
  nodup : o.subscribers.Nodup
  known : ∀ box ∈ o.subscribers, box < o.boxes.size

/-- **An observer watches**: it is subscribed, and these events wait for it. -/
structure Watches (o : Observers) (box : Nat) (events : List Event) : Prop extends Sound o where
  listed : box ∈ o.subscribers
  waiting : o.boxes[box]? = some (some events.toArray)

theorem size_post (subscribers : List Nat) (boxes : Array (Option (Array Event))) (e : Event) :
    (post subscribers boxes e).size = boxes.size := by
  induction subscribers generalizing boxes with
  | nil => rfl
  | cons box subscribers ih =>
    rw [post, List.foldl_cons]
    exact (ih _).trans Array.size_modify

theorem getElem?_post_of_notMem {subscribers : List Nat} (h : box ∉ subscribers)
    (boxes : Array (Option (Array Event))) (e : Event) :
    (post subscribers boxes e)[box]? = boxes[box]? := by
  induction subscribers generalizing boxes with
  | nil => rfl
  | cons other subscribers ih =>
    rw [post, List.foldl_cons]
    refine (ih (List.not_mem_of_not_mem_cons h) _).trans ?_
    rw [Array.getElem?_modify, if_neg (Ne.symm (List.ne_of_not_mem_cons h))]

/-- Who is on a list once gets an event once. -/
theorem getElem?_post {subscribers : List Nat} (hnodup : subscribers.Nodup)
    (h : box ∈ subscribers) (boxes : Array (Option (Array Event))) (e : Event) :
    (post subscribers boxes e)[box]? = boxes[box]?.map (·.map (·.push e)) := by
  induction subscribers generalizing boxes with
  | nil => cases h
  | cons other subscribers ih =>
    obtain ⟨hother, hnodup⟩ := List.nodup_cons.mp hnodup
    rw [post, List.foldl_cons]
    obtain rfl | hrest := List.mem_cons.mp h
    · refine (getElem?_post_of_notMem hother _ e).trans ?_
      rw [Array.getElem?_modify, if_pos rfl]
    · have hne : other ≠ box := fun heq => hother (heq ▸ hrest)
      refine (ih hnodup hrest _).trans ?_
      rw [Array.getElem?_modify, if_neg hne]

namespace Sound

theorem subscribe (h : o.Sound) : o.subscribe.1.Sound where
  nodup := by
    refine List.nodup_append.mpr ⟨h.nodup, List.pairwise_singleton _ _, ?_⟩
    intro box hbox other hother
    rw [List.mem_singleton.mp hother]
    exact Nat.ne_of_lt (h.known box hbox)
  known box hbox := by
    have hsize : o.subscribe.1.boxes.size = o.boxes.size + 1 := Array.size_push _
    rw [hsize]
    obtain hbox | hbox := List.mem_append.mp hbox
    · exact Nat.lt_succ_of_lt (h.known box hbox)
    · rw [List.mem_singleton.mp hbox]
      exact Nat.lt_succ_self _

theorem leave (h : o.Sound) (box : Nat) : (o.leave box).Sound where
  nodup := h.nodup
  known other hother := by
    rw [Observers.leave, Array.size_setIfInBounds]
    exact h.known other hother

theorem collect (h : o.Sound) (box : Nat) : (o.collect box).1.Sound := by
  unfold Observers.collect
  split
  · refine ⟨h.nodup, fun other hother => ?_⟩
    rw [Array.size_setIfInBounds]
    exact h.known other hother
  · exact h

theorem publish (h : o.Sound) (e : Event) : (o.publish e).Sound where
  nodup := h.nodup.filter _
  known box hbox := by
    rw [Observers.publish, size_post]
    exact h.known box (List.mem_filter.mp hbox).1

end Sound

/-- A new observer watches, and nothing waits for it. -/
theorem Sound.watches (h : o.Sound) : o.subscribe.1.Watches o.subscribe.2 [] where
  toSound := h.subscribe
  listed := List.mem_append_right _ (List.mem_singleton_self _)
  waiting := Array.getElem?_push_size

namespace Watches

theorem lt_size (h : o.Watches box events) : box < o.boxes.size := h.known box h.listed

theorem subscribe (h : o.Watches box events) : o.subscribe.1.Watches box events where
  toSound := h.toSound.subscribe
  listed := List.mem_append_left _ h.listed
  waiting := by
    rw [Observers.subscribe, Array.getElem?_push, if_neg (Nat.ne_of_lt h.lt_size)]
    exact h.waiting

theorem leave (h : o.Watches box events) (hne : other ≠ box) :
    (o.leave other).Watches box events where
  toSound := h.toSound.leave other
  listed := h.listed
  waiting := by
    rw [Observers.leave, Array.getElem?_setIfInBounds_ne hne]
    exact h.waiting

/-- What waits for an observer is what it takes out. -/
theorem collect_eq (h : o.Watches box events) : (o.collect box).2 = some events := by
  rw [Observers.collect, h.waiting]

theorem collect_self (h : o.Watches box events) : (o.collect box).1.Watches box [] where
  toSound := h.toSound.collect box
  listed := by
    rw [Observers.collect, h.waiting]
    exact h.listed
  waiting := by
    rw [Observers.collect, h.waiting]
    exact Array.getElem?_setIfInBounds_self_of_lt h.lt_size

theorem collect (h : o.Watches box events) (hne : other ≠ box) :
    (o.collect other).1.Watches box events := by
  refine ⟨h.toSound.collect other, ?_, ?_⟩ <;> unfold Observers.collect <;> split
  · exact h.listed
  · exact h.listed
  · exact (Array.getElem?_setIfInBounds_ne hne).trans h.waiting
  · exact h.waiting

/-- **An event reaches the box of everybody who watches.** -/
theorem publish (h : o.Watches box events) (e : Event) :
    (o.publish e).Watches box (events ++ [e]) := by
  -- whoever watches still has the box, and is not forgotten now
  have hthere : box ∈ o.subscribers.filter o.isHeld := by
    refine List.mem_filter.mpr ⟨h.listed, ?_⟩
    rw [isHeld, h.waiting]
    rfl
  refine ⟨h.toSound.publish e, hthere, ?_⟩
  refine (getElem?_post (h.nodup.filter _) hthere _ e).trans ?_
  rw [h.waiting]
  simp

theorem published (h : o.Watches box events) (more : List Event) :
    (more.foldl Observers.publish o).Watches box (events ++ more) := by
  induction more generalizing o events with
  | nil =>
    rw [List.append_nil]
    exact h
  | cons e more ih =>
    have hrest := ih (h.publish e)
    rwa [List.append_assoc, List.singleton_append] at hrest

end Watches

theorem Sound.published (h : o.Sound) (more : List Event) :
    (more.foldl Observers.publish o).Sound := by
  induction more generalizing o with
  | nil => exact h
  | cons e more ih => exact ih (h.publish e)

end Observers

/-! ### Hosts -/

/-- **What a host does.** The waits of a run come to some ticks, so it may be cancelled at any
instant. -/
inductive Action
  | subscribe
  | leave (box : Nat)
  | collect (box : Nat)
  | step
  | execute (ticks : Nat → Tick) (fuel : Nat)
  | load (program : Program) (registers : Nat)

/-- The machine behind an action, with the events that it publishes; nothing if a run is not over or
panics. -/
def Interpreter.perform (m : Interpreter) : Action → Option (Interpreter × List Event)
  | .step => some (m.step.1, m.step.2.1)
  | .execute ticks fuel =>
    (m.executeWith record ticks fuel []).toOption.map fun (m, events, _) => (m, events)
  | .load program registers =>
    match m.load program registers with
    | .ok m => some (m, [])
    | .error _ => some (m, [])
  | _ => some (m, [])

/-- **The events that a machine publishes** meanwhile, whether or not anybody hears them. -/
def Interpreter.published : Interpreter → List Action → List Event
  | _, [] => []
  | m, a :: actions =>
    match m.perform a with
    | some (m, events) => events ++ m.published actions
    | none => []

/-- The observers behind an action, before the machine publishes anything. -/
def Observers.attend (o : Observers) : Action → Observers
  | .subscribe => o.subscribe.1
  | .leave box => o.leave box
  | .collect box => (o.collect box).1
  | _ => o

namespace Bench

/-- **The bench behind an action**; nothing if a run is not over or panics. -/
def perform (b : Bench) : Action → Option Bench
  | .subscribe => some b.subscribe.1
  | .leave box => some (b.leave box)
  | .collect box => some (b.collect box).1
  | .step => some b.step.1
  | .execute ticks fuel => (b.executeWith ticks fuel).toOption.map (·.1)
  | .load program registers => some (b.load program registers).1

/-- The bench behind a row of actions. -/
def behind : Bench → List Action → Option Bench
  | b, [] => some b
  | b, a :: actions => (b.perform a).bind fun b => b.behind actions

/-- The events in a box that are not taken out yet. -/
def waiting (b : Bench) (box : Nat) : List Event := (b.collect box).2.getD []

/-- The events that an observer takes out by an action. -/
def takes (b : Bench) (box : Nat) : Action → List Event
  | .collect other => if other = box then b.waiting box else []
  | _ => []

/-- **All that an observer gets** meanwhile: what it takes out, and what waits for it then. -/
def received (box : Nat) : Bench → List Action → List Event
  | b, [] => b.waiting box
  | b, a :: actions =>
    match b.perform a with
    | some b' => b.takes box a ++ b'.received box actions
    | none => b.takes box a

variable {b b' : Bench} {a : Action} {actions : List Action} {box : Nat} {events : List Event}

/-- **The machine does not depend on its observers**, and the observers get what it publishes. -/
theorem perform_ok (h : b.perform a = some b') : ∃ events,
    b.interpreter.perform a = some (b'.interpreter, events) ∧
      b'.observers = events.foldl Observers.publish (b.observers.attend a) := by
  cases a with
  | subscribe | leave | collect | step =>
    cases h
    exact ⟨_, rfl, rfl⟩
  | execute ticks fuel =>
    obtain ⟨⟨b₁, reason⟩, hanswer, rfl⟩ := Option.map_eq_some_iff.mp h
    have hrun := Success.ok_of_toOption hanswer
    rw [executeWith, Interpreter.executeWith_publish] at hrun
    obtain ⟨_, htold, heq⟩ := Success.map_ok hrun
    obtain ⟨⟨m, events, reason'⟩, hrecord, rfl⟩ := Success.map_ok htold
    cases heq
    refine ⟨events, ?_, rfl⟩
    rw [Interpreter.perform, hrecord]
    rfl
  | load program registers =>
    cases h
    rw [load, Interpreter.perform]
    cases b.interpreter.load program registers with
    | ok m => exact ⟨[], rfl, rfl⟩
    | error e => exact ⟨[], rfl, rfl⟩

theorem behind_cons (h : b.behind (a :: actions) = some b') :
    ∃ b₁, b.perform a = some b₁ ∧ b₁.behind actions = some b' :=
  Option.bind_eq_some_iff.mp h

theorem perform_sound (h : b.observers.Sound) (hb : b.perform a = some b') :
    b'.observers.Sound := by
  obtain ⟨events, -, hobservers⟩ := perform_ok hb
  rw [hobservers]
  refine Observers.Sound.published ?_ events
  cases a with
  | subscribe => exact h.subscribe
  | leave box => exact h.leave box
  | collect box => exact h.collect box
  | step | execute | load => exact h

theorem behind_sound (h : b.observers.Sound) (hb : b.behind actions = some b') :
    b'.observers.Sound := by
  induction actions generalizing b with
  | nil =>
    cases hb
    exact h
  | cons a actions ih =>
    obtain ⟨b₁, hfirst, hrest⟩ := behind_cons hb
    exact ih (perform_sound h hfirst) hrest

theorem waiting_eq (h : b.observers.Watches box events) : b.waiting box = events := by
  have hcollect : (b.collect box).2 = (b.observers.collect box).2 := rfl
  rw [waiting, hcollect, h.collect_eq]
  rfl

/-- Who watches does so behind any action, and what it takes out is what does not wait any more. -/
theorem attend_watches (h : b.observers.Watches box events) (hlive : a ≠ .leave box) :
    ∃ left, (b.observers.attend a).Watches box left ∧ b.takes box a ++ left = events := by
  cases a with
  | subscribe => exact ⟨events, h.subscribe, rfl⟩
  | leave other => exact ⟨events, h.leave fun heq => hlive (heq ▸ rfl), rfl⟩
  | collect other =>
    by_cases hother : other = box
    · subst hother
      refine ⟨[], h.collect_self, ?_⟩
      rw [takes, if_pos rfl, waiting_eq h, List.append_nil]
    · refine ⟨events, h.collect hother, ?_⟩
      rw [takes, if_neg hother, List.nil_append]
  | step | execute | load => exact ⟨events, h, rfl⟩

/-- **Who stays gets what is published**, behind what waits for it already. -/
theorem received_eq (h : b.observers.Watches box events) (hlive : .leave box ∉ actions)
    (hb : b.behind actions = some b') :
    b.received box actions = events ++ b.interpreter.published actions := by
  induction actions generalizing b events with
  | nil =>
    rw [received, Interpreter.published, List.append_nil]
    exact waiting_eq h
  | cons a actions ih =>
    obtain ⟨b₁, hfirst, hrest⟩ := behind_cons hb
    obtain ⟨more, hmachine, hobservers⟩ := perform_ok hfirst
    obtain ⟨left, hleft, htakes⟩ := attend_watches h (Ne.symm (List.ne_of_not_mem_cons hlive))
    have hwatches : b₁.observers.Watches box (left ++ more) := by
      rw [hobservers]
      exact hleft.published more
    rw [received, Interpreter.published, hfirst, hmachine]
    dsimp only
    rw [ih hwatches (List.not_mem_of_not_mem_cons hlive) hrest, ← htakes, List.append_assoc,
      List.append_assoc]

theorem perform_tells (hbank : 0 < b.interpreter.bank.size) (hb : b.perform a = some b') :
    ∃ events, b.interpreter.perform a = some (b'.interpreter, events) ∧
      Tells (∃ p registers, a = .load p registers) b.interpreter events b'.interpreter := by
  obtain ⟨events, hmachine, -⟩ := perform_ok hb
  refine ⟨events, hmachine, ?_⟩
  cases a with
  | subscribe | leave | collect =>
    obtain ⟨heq, rfl⟩ := Prod.mk.inj (Option.some.inj hmachine)
    rw [← heq]
    exact .nothing _
  | step =>
    obtain ⟨heq, rfl⟩ := Prod.mk.inj (Option.some.inj hmachine)
    rw [← heq]
    exact Interpreter.tells_step hbank
  | execute ticks fuel =>
    obtain ⟨⟨m, events', reason⟩, hanswer, heq⟩ := Option.map_eq_some_iff.mp hmachine
    obtain ⟨rfl, rfl⟩ := Prod.mk.inj heq
    exact Interpreter.tells_execute hbank (Success.ok_of_toOption hanswer)
  | load p registers =>
    rw [Interpreter.perform] at hmachine
    split at hmachine
    · rename_i m hload
      obtain ⟨heq, rfl⟩ := Prod.mk.inj (Option.some.inj hmachine)
      rw [← heq]
      exact .loaded ⟨p, registers, rfl⟩ hload (.nothing _)
    · obtain ⟨heq, rfl⟩ := Prod.mk.inj (Option.some.inj hmachine)
      rw [← heq]
      exact .nothing _

/-- What is published tells what the machine does. -/
theorem behind_tells (hbank : 0 < b.interpreter.bank.size) (hb : b.behind actions = some b') :
    Tells (∃ p registers, .load p registers ∈ actions) b.interpreter
      (b.interpreter.published actions) b'.interpreter := by
  induction actions generalizing b with
  | nil =>
    cases hb
    exact .nothing _
  | cons a actions ih =>
    obtain ⟨b₁, hfirst, hrest⟩ := behind_cons hb
    obtain ⟨events, hmachine, htells⟩ := perform_tells hbank hfirst
    rw [Interpreter.published, hmachine]
    refine (htells.mono ?_).append ((ih (htells.nonempty hbank) hrest).mono ?_)
    · rintro ⟨p, registers, rfl⟩
      exact ⟨p, registers, List.mem_cons_self⟩
    · rintro ⟨p, registers, hload⟩
      exact ⟨p, registers, List.mem_cons_of_mem a hload⟩

end Bench

/-! ### The theorem -/

/-- **Events from which a machine is rebuilt.** They tell its way. Unless a program is loaded, the
changes among them make the last bank from the first. Behind an instruction and before the next one
there is one change at most, and what is changed had another value. -/
structure Rebuilds (loads : Prop) (first : Interpreter) (events : List Event)
    (last : Interpreter) : Prop where
  tells : Tells loads first events last
  bank : ¬ loads → first.bank.replay events = last.bank
  once : ∀ before address between after, events = before ++ .stepped address :: (between ++ after) →
    (∀ e ∈ between, e.isStep = false) → between.countP Event.isChange ≤ 1

/-- **Observers can rebuild the machine.** A machine has an accumulator at least. Whatever has
happened before, an observer subscribes, and does not leave. Whatever the host does then, whoever
comes and goes, the observer gets exactly what the machine publishes, in order, and can rebuild the
machine from it. -/
theorem observers_follow_machine {m : Interpreter} (hbank : 0 < m.bank.size)
    {before after : List Action} {b b' : Bench}
    (hbefore : Bench.behind { interpreter := m } before = some b)
    (hafter : b.subscribe.1.behind after = some b') (hlive : .leave b.subscribe.2 ∉ after) :
    b.subscribe.1.received b.subscribe.2 after = b.interpreter.published after ∧
      Rebuilds (∃ p registers, .load p registers ∈ after) b.interpreter
        (b.subscribe.1.received b.subscribe.2 after) b'.interpreter := by
  have hsound : b.observers.Sound :=
    Bench.behind_sound ⟨List.nodup_nil, List.forall_mem_nil _⟩ hbefore
  have hreceived : b.subscribe.1.received b.subscribe.2 after = b.interpreter.published after :=
    Bench.received_eq hsound.watches hlive hafter
  have htells : Tells (∃ p registers, .load p registers ∈ after) b.interpreter
      (b.interpreter.published after) b'.interpreter :=
    Bench.behind_tells (b := b.subscribe.1)
      ((Bench.behind_tells (b := { interpreter := m }) hbank hbefore).nonempty hbank) hafter
  rw [hreceived]
  exact ⟨rfl, htells, htells.replay, fun _ _ _ _ => htells.changes_once⟩

/-- The host steps, lets the second observer take its events and a third one come and leave, and
then runs the machine. -/
def crowded : List Action :=
  [.step, .subscribe, .collect 1, .leave 2, .execute (fun _ => .comes) 5]

/-- The second observer comes when the first has left, and can follow the machine to its end. -/
theorem doubling_followed : ∃ b b', 0 < Interpreter.doubling.bank.size ∧
    Bench.behind { interpreter := .doubling } [.subscribe, .leave 0] = some b ∧
    b.subscribe.1.behind crowded = some b' ∧ .leave b.subscribe.2 ∉ crowded ∧
    b.subscribe.1.received b.subscribe.2 crowded =
      [.stepped 0, .changed 0 2, .started, .stepped 1, .changed 0 4, .stepped 2, .stopped .halted] ∧
    b.interpreter.bank.replay (b.interpreter.published crowded) = b'.interpreter.bank := by
  have hlive : Action.leave 1 ∉ crowded := by simp [crowded]
  obtain ⟨hpublished, hrebuilds⟩ := @observers_follow_machine .doubling (by decide)
    [.subscribe, .leave 0] crowded _ _ rfl rfl hlive
  rw [hpublished] at hrebuilds
  exact ⟨_, _, by decide, rfl, rfl, hlive, rfl, hrebuilds.bank (by simp [crowded])⟩

end RegisterMachine.Machine
