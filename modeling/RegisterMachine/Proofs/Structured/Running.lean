import RegisterMachine.Machine.Effect
import RegisterMachine.Proofs.Structured.Meaning

/-! # Running code

Emitted code is run as it stands, before it is assembled: a point is the code that is left, with the
bank, and a jump goes behind its label in the whole code. What a run of a part of a tree comes to is
`Answers`: the code gets to a point where the result is found, or to a division by zero, or goes on
for at least so many instructions.

* `Runs`: runs of so many instructions.
* `Answers`: what running has to do with meaning; `Answers.bind` follows one part by another, and
  there is a rule for every kind of line. -/

namespace RegisterMachine.Machine.Bank

/-! ### Reading what was written -/

variable {b : Bank} {r r' : Nat} {v : UInt32}

theorem read?_write_self (v : UInt32) (h : r < b.size) : (b.write r v).read? r = some v := by
  rw [read?_write, if_pos ⟨rfl, h⟩]

theorem read?_write_of_ne (v : UInt32) (h : r ≠ r') : (b.write r v).read? r' = b.read? r' := by
  rw [read?_write, if_neg fun hr => h hr.1]

theorem accumulator_write (v : UInt32) (h : 0 < b.size) : (b.write 0 v).accumulator = v := by
  rw [accumulator, read?_write_self v h]
  rfl

/-- Writing any other register leaves the accumulator. -/
theorem accumulator_write_of_pos (v : UInt32) (h : 1 ≤ r) :
    (b.write r v).accumulator = b.accumulator := by
  rw [accumulator, read?_write_of_ne v (by omega)]
  rfl

theorem write_write (v w : UInt32) : (b.write r v).write r w = b.write r w := by
  simp only [write, mk.injEq]
  refine Array.ext_getElem? fun other => ?_
  simp only [Array.getElem?_modify]
  split
  · rw [Option.map_map]
    rfl
  · rfl

end RegisterMachine.Machine.Bank

namespace RegisterMachine.Structured

open RegisterMachine.Assembly RegisterMachine.Machine

/-- The code that is left to run, and the bank. -/
structure Point where
  code : Code
  bank : Bank

/-- The effect of a line with an operand. -/
def operate (bank : Bank) (op : Opcode) (o : Operand) : Effect :=
  effect bank 0 ⟨op, some (.operand o {}), {}⟩

/-- **Runs of code**, with the number of instructions. -/
inductive Runs (whole : Code) : Nat → Point → Point → Prop
  | refl (s : Point) : Runs whole 0 s s
  | comment {k code bank e} (text : String) (rest : Runs whole k ⟨code, bank⟩ e) :
    Runs whole k ⟨.comment text :: code, bank⟩ e
  | label {k code bank e} (m : Mark) (rest : Runs whole k ⟨code, bank⟩ e) :
    Runs whole k ⟨.label m :: code, bank⟩ e
  | write {k op o r v code bank e} (does : operate bank op o = .write r v)
    (rest : Runs whole k ⟨code, bank.write r v⟩ e) :
    Runs whole (k + 1) ⟨.operate op o :: code, bank⟩ e
  | pass {k op m code bank e} (isJump : op.isJump = true)
    (stays : jumps op bank.accumulator = false) (rest : Runs whole k ⟨code, bank⟩ e) :
    Runs whole (k + 1) ⟨.jump op m :: code, bank⟩ e
  | jump {k op m code target bank e} (isJump : op.isJump = true)
    (taken : jumps op bank.accumulator = true) (leads : .label m :: target <:+ whole)
    (rest : Runs whole k ⟨target, bank⟩ e) :
    Runs whole (k + 1) ⟨.jump op m :: code, bank⟩ e

theorem Runs.trans {whole : Code} {j k : Nat} {s e f : Point} (h : Runs whole j s e)
    (h' : Runs whole k e f) : Runs whole (k + j) s f := by
  induction h with
  | refl => exact h'
  | comment text _ ih => exact .comment text (ih h')
  | label m _ ih => exact .label m (ih h')
  | write does _ ih => exact .write does (ih h')
  | pass isJump stays _ ih => exact .pass isJump stays (ih h')
  | jump isJump taken leads _ ih => exact .jump isJump taken leads (ih h')

/-- The next line divides by zero. -/
def Point.Divides (s : Point) : Prop :=
  ∃ op o code, s.code = .operate op o :: code ∧ operate s.bank op o = .halt .divisionByZero

/-- **What running the code from a point has to do with a result.** The code gets to a point for
which `done` holds with the result; or to a division by zero; or, where the fuel was not enough,
runs for at least so many instructions. Nothing is said where there is no meaning. -/
def Answers (whole : Code) (least : Nat) {α : Type} (s : Point) (x : Except Interruption α)
    (done : α → Point → Prop) : Prop :=
  match x with
  | .ok y => ∃ k e, Runs whole k s e ∧ done y e
  | .error .divided => ∃ k e, Runs whole k s e ∧ e.Divides
  | .error .stuck => True
  | .error .unfinished => ∃ k e, Runs whole k s e ∧ least ≤ k

namespace Answers

section Combine

variable {whole : Code} {least least' k : Nat} {α β : Type} {s e : Point}
  {x : Except Interruption α} {done done' : α → Point → Prop}

theorem ok {y : α} (h : done y s) : Answers whole least s (.ok y) done := ⟨0, s, .refl s, h⟩

theorem divided (h : s.Divides) : Answers whole least s (.error .divided) done := ⟨0, s, .refl s, h⟩

theorem unfinished (h : least ≤ 0) : Answers whole least s (.error .unfinished) done :=
  ⟨0, s, .refl s, h⟩

/-- Instructions that are run before count. -/
theorem counted (h : Runs whole k s e) (h' : Answers whole least e x done) :
    Answers whole (least + k) s x done := by
  match x, h' with
  | .ok _, ⟨_, f, hrun, hf⟩ => exact ⟨_, f, h.trans hrun, hf⟩
  | .error .divided, ⟨_, f, hrun, hf⟩ => exact ⟨_, f, h.trans hrun, hf⟩
  | .error .stuck, _ => exact trivial
  | .error .unfinished, ⟨_, f, hrun, hle⟩ =>
    exact ⟨_, f, h.trans hrun, Nat.add_le_add_right hle k⟩

theorem mono (h : Answers whole least s x done) (hle : least' ≤ least)
    (hdone : ∀ y e, done y e → done' y e) : Answers whole least' s x done' := by
  match x, h with
  | .ok y, ⟨k, e, hrun, he⟩ => exact ⟨k, e, hrun, hdone y e he⟩
  | .error .divided, h => exact h
  | .error .stuck, _ => exact trivial
  | .error .unfinished, ⟨k, e, hrun, hk⟩ => exact ⟨k, e, hrun, Nat.le_trans hle hk⟩

theorem imp (h : Answers whole least s x done) (hdone : ∀ y e, done y e → done' y e) :
    Answers whole least s x done' := h.mono (Nat.le_refl least) hdone

theorem before (h : Runs whole k s e) (h' : Answers whole least e x done) :
    Answers whole least s x done := (h'.counted h).mono (Nat.le_add_right least k) fun _ _ hy => hy

/-- Code that runs behind other code. -/
theorem followed {mid : α → Point → Prop} (h : Answers whole least s x mid)
    (h' : ∀ y e, mid y e → Answers whole least e (.ok y) done) : Answers whole least s x done := by
  match x, h with
  | .ok y, ⟨k, e, hrun, he⟩ => exact before hrun (h' y e he)
  | .error .divided, h => exact h
  | .error .stuck, _ => exact trivial
  | .error .unfinished, h => exact h

/-- **One part after another.** -/
theorem bind {m : Eval α} {f : α → Eval β} {σ : Store} {mid : α × Store → Point → Prop}
    {done : β × Store → Point → Prop} (h : Answers whole least s (m σ) mid)
    (h' : ∀ y σ' e, mid (y, σ') e → Answers whole least e (f y σ') done) :
    Answers whole least s ((m >>= f) σ) done := by
  have hbind : (m >>= f) σ = (m σ >>= fun y => f y.1 y.2) := rfl
  rw [hbind]
  match hm : m σ, h with
  | .ok (y, σ'), ⟨k, e, hrun, he⟩ => exact before hrun (h' y σ' e he)
  | .error .divided, h => exact h
  | .error .stuck, _ => exact trivial
  | .error .unfinished, h => exact h

end Combine

/-! ### The rules of the lines -/

section Lines

variable {whole code : Code} {least : Nat} {α : Type} {bank : Bank} {x : Except Interruption α}
  {done : α → Point → Prop}

theorem comment (text : String) (h : Answers whole least ⟨code, bank⟩ x done) :
    Answers whole least ⟨.comment text :: code, bank⟩ x done :=
  before (.comment text (.refl _)) h

theorem label (m : Mark) (h : Answers whole least ⟨code, bank⟩ x done) :
    Answers whole least ⟨.label m :: code, bank⟩ x done :=
  before (.label m (.refl _)) h

theorem operate {op : Opcode} {o : Operand} {r : Nat} {v : UInt32}
    (does : Structured.operate bank op o = .write r v)
    (h : Answers whole least ⟨code, bank.write r v⟩ x done) :
    Answers whole least ⟨.operate op o :: code, bank⟩ x done :=
  before (.write does (.refl _)) h

theorem store {r : Nat} (hr : r < bank.size)
    (h : Answers whole least ⟨code, bank.write r bank.accumulator⟩ x done) :
    Answers whole least ⟨Code.store r :: code, bank⟩ x done := by
  refine operate ?_ h
  show storeEffect bank (.missingArgument 0) (.register r) = _
  rw [storeEffect, operandTarget]
  exact if_pos hr

/-- The accumulator is stored where a register points to. -/
theorem storePointer {r : Nat} {address : UInt32} (hr : bank.read? r = some address)
    (hsize : address.toNat < bank.size)
    (h : Answers whole least ⟨code, bank.write address.toNat bank.accumulator⟩ x done) :
    Answers whole least ⟨.operate .store (.pointer r) :: code, bank⟩ x done := by
  refine operate ?_ h
  show storeEffect bank (.missingArgument 0) (.pointer r) = _
  rw [storeEffect, operandTarget, readRegister, hr]
  exact if_pos hsize

theorem loadPointer {r : Nat} {address v : UInt32} (hr : bank.read? r = some address)
    (hv : bank.read? address.toNat = some v)
    (h : Answers whole least ⟨code, bank.write 0 v⟩ x done) :
    Answers whole least ⟨Code.load (.pointer r) :: code, bank⟩ x done := by
  refine operate ?_ h
  show computeEffect bank .load (.pointer r) = _
  simp only [computeEffect, operandValue, readRegister, hr, hv, compute]

/-- The word of an operand goes to the accumulator. -/
theorem load {o : Operand} {v : UInt32} (hv : operandValue bank o = .ok v)
    (h : Answers whole least ⟨code, bank.write 0 v⟩ x done) :
    Answers whole least ⟨Code.load o :: code, bank⟩ x done := by
  refine operate ?_ h
  show computeEffect bank .load o = _
  simp only [computeEffect, hv, Machine.compute]

/-- What is computed from the accumulator and an operand goes to the accumulator. -/
theorem compute {op : Opcode} {o : Operand} {v w : UInt32} (hv : operandValue bank o = .ok v)
    (hop : op = .add ∨ op = .sub ∨ op = .mul ∨ op = .div)
    (hw : Machine.compute op bank.accumulator v = .ok w)
    (h : Answers whole least ⟨code, bank.write 0 w⟩ x done) :
    Answers whole least ⟨.operate op o :: code, bank⟩ x done := by
  refine operate ?_ h
  have heffect : Structured.operate bank op o = computeEffect bank op o := by
    rcases hop with rfl | rfl | rfl | rfl <;> rfl
  rw [heffect]
  simp only [computeEffect, hv, hw]

/-- A jump that is not taken is an instruction that counts. -/
theorem pass_counted {op : Opcode} {m : Mark} (isJump : op.isJump = true)
    (stays : jumps op bank.accumulator = false) (h : Answers whole least ⟨code, bank⟩ x done) :
    Answers whole (least + 1) ⟨.jump op m :: code, bank⟩ x done :=
  counted (.pass isJump stays (.refl _)) h

theorem pass {op : Opcode} {m : Mark} (isJump : op.isJump = true)
    (stays : jumps op bank.accumulator = false) (h : Answers whole least ⟨code, bank⟩ x done) :
    Answers whole least ⟨.jump op m :: code, bank⟩ x done :=
  before (.pass isJump stays (.refl _)) h

theorem jump {op : Opcode} {m : Mark} {target : Code} (isJump : op.isJump = true)
    (taken : jumps op bank.accumulator = true) (leads : .label m :: target <:+ whole)
    (h : Answers whole least ⟨target, bank⟩ x done) :
    Answers whole least ⟨.jump op m :: code, bank⟩ x done :=
  before (.jump isJump taken leads (.refl _)) h

theorem goto {m : Mark} {target : Code} (leads : .label m :: target <:+ whole)
    (h : Answers whole least ⟨target, bank⟩ x done) :
    Answers whole least ⟨.jump .goto m :: code, bank⟩ x done := jump rfl rfl leads h

end Lines

end Answers

/-! ### Operands that are read -/

/-- **An immediate or a register stands for a word.** The register may be the accumulator. -/
def Denotes (bank : Bank) : Operand → UInt32 → Prop
  | .immediate value, v => value = v
  | .register r, v => bank.read? r = some v
  | .pointer _, _ => False

/-- **An operand stands for a word**, and goes on to do so when the accumulator changes. -/
def Reads (bank : Bank) : Operand → UInt32 → Prop
  | .immediate value, v => value = v
  | .register r, v => 1 ≤ r ∧ bank.read? r = some v
  | .pointer _, _ => False

section Reads

variable {whole code : Code} {least : Nat} {α : Type} {bank bank' : Bank} {o : Operand}
  {v : UInt32} {x : Except Interruption α} {done : α → Point → Prop}

theorem Denotes.operandValue (h : Denotes bank o v) : operandValue bank o = .ok v := by
  cases o with
  | immediate value => exact congrArg Except.ok h
  | register r =>
    show readRegister bank r = .ok v
    rw [readRegister, show bank.read? r = some v from h]
  | pointer r => cases h

theorem Denotes.reads (h : Denotes bank o v) (apart : o ≠ .register 0) : Reads bank o v := by
  cases o with
  | immediate value => exact h
  | register r => exact ⟨Nat.one_le_iff_ne_zero.mpr fun hr => apart (congrArg _ hr), h⟩
  | pointer r => cases h

theorem Reads.denotes (h : Reads bank o v) : Denotes bank o v := by
  cases o with
  | immediate value => exact h
  | register r => exact h.2
  | pointer r => cases h

theorem Reads.operandValue (h : Reads bank o v) : operandValue bank o = .ok v :=
  h.denotes.operandValue

/-- Only the register of the operand counts. -/
theorem Reads.of_read? (h : Reads bank o v)
    (hread : ∀ r, o = .register r → 1 ≤ r → bank'.read? r = bank.read? r) : Reads bank' o v := by
  cases o with
  | immediate value => exact h
  | register r => exact ⟨h.1, (hread r rfl h.1).trans h.2⟩
  | pointer r => cases h

theorem Reads.write (h : Reads bank o v) (w : UInt32) : Reads (bank.write 0 w) o v :=
  h.of_read? fun _ _ hr => Bank.read?_write_of_ne w (by omega)

theorem Reads.load (h : Reads bank o v) (h' : Answers whole least ⟨code, bank.write 0 v⟩ x done) :
    Answers whole least ⟨Code.load o :: code, bank⟩ x done := .load h.operandValue h'

end Reads

end RegisterMachine.Structured
