import RegisterMachine.Proofs.Compilation.Placement
import RegisterMachine.Proofs.Structured.Lines
import RegisterMachine.Proofs.Structured.Operating

/-! # Operations on the machine

Wherever the code of an operator stands in a memory, a machine that comes to it with the left
operand in the accumulator leaves it at its end, with the result in the accumulator and all other
registers as they were. The result of a comparison is 1 or 0, as the numbers compare.

* `Operator.Holds`: what a comparison says of two numbers.
* `Assembled.operation_appears`: where code of an operator stands in an assembled program.
* `Emits.operation_plain`: the operands that the emitter gives it.
* `operation_computed`, `comparison_decided`: what the machine makes of it. -/

namespace RegisterMachine.Structured

open RegisterMachine.Assembly RegisterMachine.Machine

/-- **What a comparison says of two numbers.** -/
def Operator.Holds (op : Operator) (x y : Nat) : Prop :=
  match op with
  | .equal => x = y
  | .notEqual => x ≠ y
  | .greaterThan => x > y
  | .lessThan => x < y
  | .greaterThanOrEqual => x ≥ y
  | .lessThanOrEqual => x ≤ y
  | .add | .subtract | .multiply | .divide => False

instance (op : Operator) (x y : Nat) : Decidable (op.Holds x y) :=
  match op with
  | .equal => inferInstanceAs (Decidable (x = y))
  | .notEqual => inferInstanceAs (Decidable (x ≠ y))
  | .greaterThan => inferInstanceAs (Decidable (x > y))
  | .lessThan => inferInstanceAs (Decidable (x < y))
  | .greaterThanOrEqual => inferInstanceAs (Decidable (x ≥ y))
  | .lessThanOrEqual => inferInstanceAs (Decidable (x ≤ y))
  | .add | .subtract | .multiply | .divide => inferInstanceAs (Decidable False)

theorem truth_of_iff {p q : Prop} [Decidable p] [Decidable q] (h : p ↔ q) :
    truth p = if q then 1 else 0 := by
  by_cases hp : p
  · rw [truth_of hp, if_pos (h.mp hp)]
  · rw [truth_of_not hp, if_neg (mt h.mpr hp)]

/-- Words compare as the numbers do. -/
theorem Operator.apply_comparison {op : Operator} (h : op.isComparison = true) (x y : UInt32) :
    op.apply x y = .ok (if op.Holds x.toNat y.toNat then 1 else 0) := by
  cases op with
  | add | subtract | multiply | divide => cases h
  | equal => exact congrArg Except.ok (truth_of_iff UInt32.toNat_inj.symm)
  | notEqual => exact congrArg Except.ok (truth_of_iff UInt32.toNat_inj.symm.not)
  | greaterThan | lessThan => exact congrArg Except.ok (truth_of_iff UInt32.lt_iff_toNat_lt)
  | greaterThanOrEqual | lessThanOrEqual =>
    exact congrArg Except.ok (truth_of_iff UInt32.le_iff_toNat_le)

/-! ### The code of an operator in a program -/

section Appears

variable {op : Operator} {left right : Operand} {n : Nat}

/-- The code of an operator places its labels itself, one for each number. -/
theorem operation_placed (op : Operator) (left right : Operand) (n : Nat) :
    ∃ highest, Placed [] highest n (Operation.code op left right n).2
      (Operation.code op left right n).1 := by
  refine ⟨max (left.register?.getD 0) (right.register?.getD 0), placed_operation rfl ?_ ?_⟩
  · intro r hr
    rw [hr]
    exact Nat.le_max_left _ _
  · intro r hr
    rw [hr]
    exact Nat.le_max_right _ _

/-- **Code of an operator appears in the program that contains it**, behind the instructions that
stand before it. -/
theorem Assembled.operation_appears {before rest : Code} {p : Program}
    (h : Assembled (before ++ (Operation.code op left right n).1 ++ rest) p)
    (hnodup : (Code.marks (before ++ (Operation.code op left right n).1 ++ rest)).Nodup) :
    (Operation.code op left right n).1.AppearsAt p.instructions before.instructions.length := by
  obtain ⟨highest, placed⟩ := operation_placed op left right n
  have hpart := h.appearsAt.part hnodup fun op m hjump => by
    have hvalid := (placed.lines _ hjump).2
    rwa [List.append_nil] at hvalid
  rwa [Nat.zero_add] at hpart

end Appears

/-- An immediate, or a register behind the accumulator. -/
def Plain : Operand → Prop
  | .immediate _ => True
  | .register r => 1 ≤ r
  | .pointer _ => False

theorem Plain.apart {o : Operand} (h : Plain o) : o ≠ .register 0 := by
  rintro rfl
  exact absurd h (Nat.not_succ_le_zero 0)

theorem Simple.plain {R R' : Registers} {e : Expression} {o : Operand} (hs : R.Sound)
    (h : Simple R e o R') : Plain o := by
  cases h with
  | number => trivial
  | name register =>
    exact ((Registers.leads_getOrReserve (fun _ => False) register).sound hs).pos
      (Registers.get?_getOrReserve register)

/-- **The emitter gives operators plain operands**: immediates, registers of scalars and
temporaries. -/
theorem Emits.operation_plain {t : Tree} {d n n' : Nat} {a : Surroundings} {op : Operator}
    {left right : Expression} {span : Span} {R R' : Registers} {code : Code} (hs : R.Sound)
    (h : Emits t d a (.expression (.binary op left right span)) R n code R' n') :
    ∃ before l r k, code = before ++ (Operation.code op l r k).1 ∧ Plain l ∧ Plain r := by
  cases h with
  | simple _ second first operation =>
    obtain rfl := congrArg Prod.fst operation
    have hs₁ := (second.leads fun _ => False).sound hs
    exact ⟨[_], _, _, _, rfl, first.plain hs₁, second.plain hs⟩
  | spilled _ second leftCode temporary operation =>
    obtain rfl := congrArg Prod.fst operation
    exact ⟨_, _, _, _, (List.append_assoc _ [_] _).symm, (Registers.temporary_fresh temporary).2,
      second.plain hs⟩
  | binary _ leftCode leftTemporary rightCode rightTemporary operation =>
    obtain rfl := congrArg Prod.fst operation
    exact ⟨_, _, _, _, (List.append_assoc _ [_, _] _).symm,
      (Registers.temporary_fresh leftTemporary).2, (Registers.temporary_fresh rightTemporary).2⟩

/-! ### The machine at work -/

section Computed

variable {op : Operator} {left right : Operand} {n start : Nat} {m : Interpreter} {x y v : UInt32}

/-- **So many steps compute a word** by the code at an address: the word is in the accumulator, the
other registers are as they were, and the counter has come from inside of the code to its end. -/
structure Computed (code : Code) (start : Nat) (v : UInt32) (m : Interpreter) (k : Nat) : Prop where
  accumulator : (m.after k).bank.read? 0 = some v
  others : ∀ r, r ≠ 0 → (m.after k).bank.read? r = m.bank.read? r
  counter : (m.after k).counter = start + code.instructions.length
  running : (m.after k).state ≠ .stopped
  inside : ∀ j < k, Inside code start (m.after j)

/-- **The machine computes every operation that has a result**, wherever its code stands in the
memory. The left operand is in the accumulator too, but it is plain, as the emitter's are: from the
accumulator itself the code could not load it again. -/
theorem operation_computed (result : op.apply x y = .ok v)
    (appears : (Operation.code op left right n).1.AppearsAt m.memory start)
    (counter : m.counter = start) (running : m.state ≠ .stopped)
    (accumulator : m.bank.read? 0 = some x) (hleft : Denotes m.bank left x)
    (hright : Denotes m.bank right y) (plain : Plain left) :
    ∃ k, Computed (Operation.code op left right n).1 start v m k := by
  obtain ⟨highest, placed⟩ := operation_placed op left right n
  generalize hcode : (Operation.code op left right n).1 = code at appears placed ⊢
  have hsize : 0 < m.bank.size := lt_size_of_read? accumulator
  have hacc : m.bank.accumulator = x := by
    rw [Bank.accumulator, accumulator]
    rfl
  -- the code by itself
  have hanswers : Answers code 0 ⟨code ++ [], m.bank⟩ (op.apply x y)
      fun v e => e = ⟨[], m.bank.write 0 v⟩ :=
    operation_answers (Prod.ext hcode rfl) hsize hacc (hleft.reads plain.apart) hright
      ((List.append_nil code).symm ▸ List.suffix_refl code)
  rw [result, List.append_nil] at hanswers
  obtain ⟨k, e, hruns, rfl⟩ := hanswers
  -- the code in the memory
  have hstart : Within code m.memory start ⟨code, m.bank⟩ m :=
    ⟨rfl, running, rfl, [], rfl, counter⟩
  obtain ⟨harrives, hinside⟩ := hruns.executes_within appears (placed.nodup.of_map _) hstart
  refine ⟨k, ?_, fun r hr => ?_, harrives.counter_end, harrives.running, hinside⟩
  · rw [harrives.bank]
    exact Bank.read?_write_self v hsize
  · rw [harrives.bank]
    exact Bank.read?_write_of_ne v hr.symm

/-- **The machine decides every comparison**: it computes 1 where the comparison holds of the
numbers, and 0 where it does not. -/
theorem comparison_decided (comparison : op.isComparison = true)
    (appears : (Operation.code op left right n).1.AppearsAt m.memory start)
    (counter : m.counter = start) (running : m.state ≠ .stopped)
    (accumulator : m.bank.read? 0 = some x) (hleft : Denotes m.bank left x)
    (hright : Denotes m.bank right y) (plain : Plain left) :
    ∃ k, Computed (Operation.code op left right n).1 start
      (if op.Holds x.toNat y.toNat then 1 else 0) m k := by
  have result := Operator.apply_comparison comparison x y
  exact operation_computed result appears counter running accumulator hleft hright plain

end Computed

/-- A jump to a label at an address. -/
def jumpTo (op : Opcode) (mark : Mark) (address : Nat) : Instruction :=
  ⟨op, some (.reference mark.text (some ⟨mark.text, address, {}⟩) {}), {}⟩

/-- `R1 <= R1` between two other instructions, for the largest word. -/
def summit : Interpreter where
  bank := ⟨#[⟨"Acc", 4294967295⟩, ⟨"R1", 4294967295⟩, ⟨"R2", 7⟩]⟩
  counter := 1
  memory := #[
    ⟨.load, some (.operand (.register 1) {}), {}⟩,
    ⟨.sub, some (.operand (.register 1) {}), {}⟩,
    jumpTo .jzero ⟨.greaterEnd, 5⟩ 4,
    ⟨.load, some (.operand (.immediate 1) {}), {}⟩,
    jumpTo .jnzero ⟨.notTrue, 6⟩ 7,
    ⟨.load, some (.operand (.immediate 1) {}), {}⟩,
    jumpTo .goto ⟨.notEnd, 7⟩ 8,
    ⟨.load, some (.operand (.immediate 0) {}), {}⟩,
    ⟨.store, some (.operand (.register 2) {}), {}⟩]

theorem summit_decided :
    (Operation.code .lessThanOrEqual (.register 1) (.register 1) 5).1.AppearsAt summit.memory 1 ∧
      ∃ k, Computed (Operation.code .lessThanOrEqual (.register 1) (.register 1) 5).1 1 1
        summit k := by
  have appears : (Operation.code .lessThanOrEqual (.register 1) (.register 1) 5).1.AppearsAt
      summit.memory 1 :=
    .cons (.operate ..) <| .cons (.jump _ _ _ ⟨_, rfl, by decide⟩) <| .cons (.operate ..) <|
      .cons (.jump _ _ _ ⟨_, rfl, by decide⟩) <| .cons (.operate ..) <|
      .cons (.jump _ _ _ ⟨_, rfl, by decide⟩) <| .cons (.operate ..) .nil
  exact ⟨appears, comparison_decided rfl appears rfl nofun rfl rfl rfl (Nat.le_refl 1)⟩

end RegisterMachine.Structured
