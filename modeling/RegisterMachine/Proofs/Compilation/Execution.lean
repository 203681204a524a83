import RegisterMachine.Proofs.Compilation.Placement

/-! # The machine follows the code

A machine that has loaded the program of some code does what the code does: it is at a point of the
code when its counter is the number of the instructions before, and a step takes it to the next one.

* `At`: the machine is at a point.
* `Runs.executes`: runs of the code are runs of the machine.
* `At.divides`, `At.halts`: how runs end. -/

namespace RegisterMachine.Structured

open RegisterMachine.Assembly RegisterMachine.Machine

/-- **The machine is at a point of the code**, and runs. -/
structure At (whole : Code) (p : Program) (s : Point) (m : Interpreter) : Prop where
  memory : m.memory = p.instructions
  running : m.state ≠ .stopped
  bank : m.bank = s.bank
  counter : ∃ before, whole = before ++ s.code ∧ m.counter = (Code.instructions before).length

/-- The code of the program is all of the memory. -/
theorem at_iff_within {whole : Code} {p : Program} {s : Point} {m : Interpreter} :
    At whole p s m ↔ Within whole p.instructions 0 s m := by
  constructor
  · intro h
    obtain ⟨before, hwhole, hcounter⟩ := h.counter
    exact ⟨h.memory, h.running, h.bank, before, hwhole, hcounter.trans (Nat.zero_add _).symm⟩
  · intro h
    obtain ⟨before, hwhole, hcounter⟩ := h.counter
    exact ⟨h.memory, h.running, h.bank, before, hwhole, hcounter.trans (Nat.zero_add _)⟩

section Execute

variable {whole code : Code} {p : Program} {m : Interpreter} {bank : Bank} {s e : Point}
  {line : Line}

/-- A machine that has been loaded is at the start. -/
theorem At.of_load {fresh : Interpreter} {registers : Nat} (h : fresh.load p registers = .ok m) :
    At whole p ⟨whole, Bank.zero registers⟩ m := by
  obtain ⟨_, -, rfl⟩ := Success.map_ok h
  exact ⟨rfl, nofun, rfl, [], rfl, rfl⟩

/-- The instruction that comes next is that of the line. -/
theorem At.current (h : At whole p ⟨line :: code, bank⟩ m) (hp : Assembled whole p)
    (hline : line.isInstruction = true) : ∃ i, m.current? = some i ∧ line.Spells
      (fun m target => ∃ l, target = some l ∧ (m, l.address) ∈ whole.labelsFrom 0) i :=
  ((at_iff_within.mp h).current hp.appearsAt hline).2

/-- Lines that are no instructions are passed over. -/
theorem At.skip (h : At whole p ⟨line :: code, bank⟩ m) (hline : line.isInstruction = false) :
    At whole p ⟨code, bank⟩ m :=
  at_iff_within.mpr ((at_iff_within.mp h).skip hline)

/-- The counter behind an instruction. -/
theorem At.behind {bank' : Bank} {m' : Interpreter} (h : At whole p ⟨line :: code, bank⟩ m)
    (hline : line.isInstruction = true) (memory : m'.memory = m.memory)
    (running : m'.state ≠ .stopped) (hbank : m'.bank = bank')
    (counter : m'.counter = m.counter + 1) :
    At whole p ⟨code, bank'⟩ m' :=
  at_iff_within.mpr ((at_iff_within.mp h).behind hline memory running hbank counter)

/-- **Runs of the code are runs of the machine**, step by step. -/
theorem Runs.executes {k : Nat} (hp : Assembled whole p) (hnodup : whole.marks.Nodup)
    (h : Runs whole k s e) {m : Interpreter} (hm : At whole p s m) : At whole p e (m.after k) :=
  at_iff_within.mpr (h.executes_within hp.appearsAt hnodup (at_iff_within.mp hm)).arrives

/-- A division by zero stops the machine. -/
theorem At.divides (h : At whole p s m) (hp : Assembled whole p) (hs : s.Divides) :
    m.step.1.lastStop = some .divisionByZero := by
  obtain ⟨op, o, code, hcode, hdivides⟩ := hs
  obtain ⟨code', bank⟩ := s
  obtain rfl : code' = _ := hcode
  obtain ⟨i, hi, hspells⟩ := h.current hp rfl
  cases hspells with
  | operate _ _ place span =>
    have heffect : effect m.bank m.counter ⟨op, some (.operand o place), span⟩ =
        .halt .divisionByZero := by
      rw [h.bank]
      exact effect_of_operate hdivides (.inr rfl) _ _ _
    rw [Interpreter.step_of_halt h.running hi heffect]
    rfl

/-- `END` stops the machine, with the bank that it has. -/
theorem At.halts (h : At whole p ⟨.halt :: code, bank⟩ m) (hp : Assembled whole p) :
    m.step.1.lastStop = some .halted ∧ m.step.1.bank = bank := by
  obtain ⟨i, hi, hspells⟩ := h.current hp rfl
  cases hspells with
  | halt span =>
    rw [Interpreter.step_of_halt h.running hi rfl]
    exact ⟨rfl, h.bank⟩

end Execute

end RegisterMachine.Structured
