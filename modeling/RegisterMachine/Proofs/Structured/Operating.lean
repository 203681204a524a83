import RegisterMachine.Proofs.Structured.Running

/-! # Operators

The code of an operator does what the operator means: from a left operand in the accumulator it
comes to the result there, and changes nothing else. The code of a comparison is followed through
its jumps, with `difference` for the subtraction that stops at zero.

* `greaterThan_answers`, `equal_answers`, `lessThan_answers`, `negation_answers`: the comparisons.
* `operation_answers`: all operators. -/

namespace RegisterMachine.Structured

open RegisterMachine.Assembly RegisterMachine.Machine

/-- Code behind other code in the whole. -/
theorem behind {whole code : Code} (before : Code) (h : before ++ code <:+ whole) :
    code <:+ whole :=
  (List.suffix_append before code).trans h

/-! ### Truth values and differences -/

/-- The subtraction of the machine. -/
def difference (x y : UInt32) : UInt32 := if y ≤ x then x - y else 0

theorem difference_eq_zero_iff {x y : UInt32} : difference x y = 0 ↔ x ≤ y := by
  unfold difference
  split
  · rename_i hle
    rw [← UInt32.toNat_inj, UInt32.toNat_sub_of_le x y hle, UInt32.le_iff_toNat_le]
    exact Nat.sub_eq_zero_iff_le
  · rename_i hlt
    exact ⟨fun _ => UInt32.le_of_lt (UInt32.not_le.mp hlt), fun _ => rfl⟩

theorem difference_ne_zero {x y : UInt32} (h : y < x) : difference x y ≠ 0 :=
  fun hzero => UInt32.not_le.mpr h (difference_eq_zero_iff.mp hzero)

/-- The word of the accumulator as an operand. -/
theorem Denotes.eq_accumulator {bank : Bank} {y : UInt32} (h : Denotes bank (.register 0) y) :
    y = bank.accumulator := by
  rw [Bank.accumulator, show bank.read? 0 = some y from h]
  rfl

section Comparisons

variable {whole rest : Code} {least n : Nat} {α : Type} {bank : Bank} {left right : Operand}
  {x y v w : UInt32} {res : Except Interruption α} {done : α → Point → Prop}

/-- The difference with an operand goes to the accumulator. -/
theorem Answers.sub {code : Code} (hy : operandValue bank right = .ok y)
    (hacc : bank.accumulator = x)
    (h : Answers whole least ⟨code, bank.write 0 (difference x y)⟩ res done) :
    Answers whole least ⟨.operate .sub right :: code, bank⟩ res done := by
  subst hacc
  exact .compute hy (.inr (.inl rfl)) rfl h

/-- A number goes to the accumulator, over what was written there before. -/
theorem Answers.loadOver {code : Code}
    (h : Answers whole least ⟨code, bank.write 0 w⟩ res done) :
    Answers whole least ⟨Code.load (.immediate w) :: code, bank.write 0 v⟩ res done := by
  have hload : Reads (bank.write 0 v) (.immediate w) w := rfl
  refine hload.load ?_
  rw [Bank.write_write]
  exact h

/-- A number goes to the accumulator before a jump behind the code. -/
theorem Answers.loadAndLeave {code : Code} {m : Mark} (leads : .label m :: rest <:+ whole)
    (h : Answers whole least ⟨rest, bank.write 0 w⟩ res done) :
    Answers whole least ⟨Code.load (.immediate w) :: .jump .goto m :: code, bank.write 0 v⟩
      res done :=
  .loadOver (.goto leads h)

/-- A number goes to the accumulator at the end of the code. -/
theorem Answers.loadAndEnd {m : Mark} (h : Answers whole least ⟨rest, bank.write 0 w⟩ res done) :
    Answers whole least ⟨Code.load (.immediate w) :: .label m :: rest, bank.write 0 v⟩ res done :=
  .loadOver (.label m h)

theorem jzero_taken (hsize : 0 < bank.size) (hv : v = 0) :
    jumps .jzero (bank.write 0 v).accumulator = true := by
  rw [Bank.accumulator_write v hsize, hv]
  rfl

theorem jzero_stays (hsize : 0 < bank.size) (hv : v ≠ 0) :
    jumps .jzero (bank.write 0 v).accumulator = false := by
  rw [Bank.accumulator_write v hsize]
  exact beq_false_of_ne hv

theorem jnzero_taken (hsize : 0 < bank.size) (hv : v ≠ 0) :
    jumps .jnzero (bank.write 0 v).accumulator = true := by
  rw [Bank.accumulator_write v hsize]
  exact bne_iff_ne.mpr hv

theorem jnzero_stays (hsize : 0 < bank.size) (hv : v = 0) :
    jumps .jnzero (bank.write 0 v).accumulator = false := by
  rw [Bank.accumulator_write v hsize, hv]
  rfl

theorem truth_of {p : Prop} [Decidable p] (h : p) : truth p = 1 := by
  rw [truth, decide_eq_true h]
  rfl

theorem truth_of_not {p : Prop} [Decidable p] (h : ¬ p) : truth p = 0 := by
  rw [truth, decide_eq_false h]
  rfl

theorem greaterThan_answers (hsize : 0 < bank.size) (hacc : bank.accumulator = x)
    (hy : operandValue bank right = .ok y)
    (placed : (Operation.greaterThan right n).1 ++ rest <:+ whole)
    (h : Answers whole least ⟨rest, bank.write 0 (truth (y < x))⟩ res done) :
    Answers whole least ⟨(Operation.greaterThan right n).1 ++ rest, bank⟩ res done := by
  have hdone : .label ⟨.greaterEnd, n⟩ :: rest <:+ whole := behind [_, _, _] placed
  refine .sub hy hacc ?_
  by_cases hlt : y < x
  · rw [truth_of hlt] at h
    exact .pass rfl (jzero_stays hsize (difference_ne_zero hlt)) (.loadAndEnd h)
  · have hzero : difference x y = 0 := difference_eq_zero_iff.mpr (UInt32.not_lt.mp hlt)
    rw [truth_of_not hlt] at h
    refine .jump rfl (jzero_taken hsize hzero) hdone ?_
    rw [hzero]
    exact h

/-- The accumulator as the right operand: what is loaded again is the difference. -/
theorem equal_itself (hsize : 0 < bank.size) (hacc : bank.accumulator = x) (hx : Reads bank left x)
    (hy : Denotes bank (.register 0) x)
    (placed : (Operation.equal left (.register 0) n).1 ++ rest <:+ whole)
    (h : Answers whole least ⟨rest, bank.write 0 1⟩ res done) :
    Answers whole least ⟨(Operation.equal left (.register 0) n).1 ++ rest, bank⟩ res done := by
  have hdone : .label ⟨.equalEnd, n + 1⟩ :: rest <:+ whole :=
    behind [_, _, _, _, _, _, _, _, _] placed
  have hnone : difference x x = 0 := difference_eq_zero_iff.mpr (UInt32.le_refl x)
  have hleft : difference 0 x = 0 := difference_eq_zero_iff.mpr UInt32.zero_le
  have hzero : Denotes (bank.write 0 0) (.register 0) 0 := Bank.read?_write_self 0 hsize
  refine .sub hy.operandValue hacc ?_
  rw [hnone]
  refine .pass rfl (jnzero_stays hsize rfl) ?_
  refine .load hzero.operandValue ?_
  rw [Bank.write_write]
  refine .sub (hx.write 0).operandValue (Bank.accumulator_write 0 hsize) ?_
  rw [Bank.write_write, hleft]
  exact .pass rfl (jnzero_stays hsize rfl) (.loadAndLeave hdone h)

theorem equal_answers (hsize : 0 < bank.size) (hacc : bank.accumulator = x)
    (hx : Reads bank left x) (hy : Denotes bank right y)
    (placed : (Operation.equal left right n).1 ++ rest <:+ whole)
    (h : Answers whole least ⟨rest, bank.write 0 (truth (x = y))⟩ res done) :
    Answers whole least ⟨(Operation.equal left right n).1 ++ rest, bank⟩ res done := by
  by_cases hright : right = .register 0
  · subst hright
    obtain rfl : x = y := hacc.symm.trans hy.eq_accumulator.symm
    rw [truth_of rfl] at h
    exact equal_itself hsize hacc hx hy placed h
  have hy := hy.reads hright
  have hfailed : .label ⟨.equalFailed, n⟩ :: Code.load (.immediate 0) ::
      .label ⟨.equalEnd, n + 1⟩ :: rest <:+ whole := behind [_, _, _, _, _, _, _] placed
  have hdone : .label ⟨.equalEnd, n + 1⟩ :: rest <:+ whole := behind [_, _] hfailed
  refine .sub hy.operandValue hacc ?_
  by_cases hxy : x ≤ y
  · refine .pass rfl (jnzero_stays hsize (difference_eq_zero_iff.mpr hxy)) ?_
    refine (hy.write _).load ?_
    rw [Bank.write_write]
    refine .sub (hx.write _).operandValue (Bank.accumulator_write y hsize) ?_
    rw [Bank.write_write]
    by_cases hyx : y ≤ x
    · rw [truth_of (UInt32.le_antisymm hxy hyx)] at h
      exact .pass rfl (jnzero_stays hsize (difference_eq_zero_iff.mpr hyx)) (.loadAndLeave hdone h)
    · have hne : x ≠ y := fun heq => hyx (UInt32.le_of_eq heq.symm)
      rw [truth_of_not hne] at h
      exact .jump rfl (jnzero_taken hsize (difference_ne_zero (UInt32.not_le.mp hyx))) hfailed
        (.loadAndEnd h)
  · have hne : x ≠ y := fun heq => hxy (UInt32.le_of_eq heq)
    rw [truth_of_not hne] at h
    exact .jump rfl (jnzero_taken hsize (difference_ne_zero (UInt32.not_le.mp hxy))) hfailed
      (.loadAndEnd h)

/-- The code of `<`, with that of `=` in it. -/
theorem lessThan_code (left right : Operand) (n : Nat) (rest : Code) :
    (Operation.lessThan left right n).1 ++ rest =
      Code.load right :: .operate .sub left :: .jump .jzero ⟨.lessFailed, n⟩ :: Code.load left ::
        ((Operation.equal left right (n + 2)).1 ++ .jump .jnzero ⟨.lessFailed, n⟩ ::
          Code.load (.immediate 1) :: .jump .goto ⟨.lessEnd, n + 1⟩ ::
          .label ⟨.lessFailed, n⟩ :: Code.load (.immediate 0) ::
          .label ⟨.lessEnd, n + 1⟩ :: rest) := rfl

/-- Where the code of `<` goes when the answer is no. -/
theorem lessThan_failed (placed : (Operation.lessThan left right n).1 ++ rest <:+ whole) :
    .label ⟨.lessFailed, n⟩ :: Code.load (.immediate 0) :: .label ⟨.lessEnd, n + 1⟩ :: rest <:+
      whole := by
  rw [lessThan_code] at placed
  exact behind [_, _, _]
    (behind (Operation.equal left right (n + 2)).1 (behind [_, _, _, _] placed))

/-- The first difference is enough where the left operand is not the smaller one. -/
theorem lessThan_refuted (hsize : 0 < bank.size) (hx : Reads bank left x)
    (hy : operandValue bank right = .ok y) (hyx : y ≤ x)
    (placed : (Operation.lessThan left right n).1 ++ rest <:+ whole)
    (h : Answers whole least ⟨rest, bank.write 0 0⟩ res done) :
    Answers whole least ⟨(Operation.lessThan left right n).1 ++ rest, bank⟩ res done := by
  have hfailed := lessThan_failed placed
  rw [lessThan_code]
  refine .load hy ?_
  refine .sub (hx.write _).operandValue (Bank.accumulator_write y hsize) ?_
  rw [Bank.write_write]
  exact .jump rfl (jzero_taken hsize (difference_eq_zero_iff.mpr hyx)) hfailed (.loadAndEnd h)

theorem lessThan_answers (hsize : 0 < bank.size) (hacc : bank.accumulator = x)
    (hx : Reads bank left x) (hy : Denotes bank right y)
    (placed : (Operation.lessThan left right n).1 ++ rest <:+ whole)
    (h : Answers whole least ⟨rest, bank.write 0 (truth (x < y))⟩ res done) :
    Answers whole least ⟨(Operation.lessThan left right n).1 ++ rest, bank⟩ res done := by
  by_cases hyx : y ≤ x
  · rw [truth_of_not (UInt32.not_lt.mpr hyx)] at h
    exact lessThan_refuted hsize hx hy.operandValue hyx placed h
  · have hlt : x < y := UInt32.not_le.mp hyx
    have hne : x ≠ y := UInt32.ne_of_lt hlt
    have hy : Reads bank right y := hy.reads fun hright =>
      hne (hacc.symm.trans (hright ▸ hy).eq_accumulator.symm)
    have hdone : .label ⟨.lessEnd, n + 1⟩ :: rest <:+ whole :=
      behind [_, _] (lessThan_failed placed)
    rw [truth_of hlt] at h
    rw [lessThan_code] at placed ⊢
    refine hy.load ?_
    refine .sub (hx.write _).operandValue (Bank.accumulator_write y hsize) ?_
    rw [Bank.write_write]
    refine .pass rfl (jzero_stays hsize (difference_ne_zero hlt)) ?_
    refine (hx.write _).load ?_
    rw [Bank.write_write]
    refine equal_answers (by rwa [Bank.size_write]) (Bank.accumulator_write x hsize) (hx.write _)
      (hy.write _).denotes (behind [_, _, _, _] placed) ?_
    rw [Bank.write_write, truth_of_not hne]
    exact .pass rfl (jnzero_stays hsize rfl) (.loadAndLeave hdone h)

theorem negation_answers {p : Prop} [Decidable p] (hsize : 0 < bank.size)
    (placed : (Operation.negation n).1 ++ rest <:+ whole)
    (h : Answers whole least ⟨rest, bank.write 0 (truth ¬ p)⟩ res done) :
    Answers whole least ⟨(Operation.negation n).1 ++ rest, bank.write 0 (truth p)⟩ res done := by
  have hfailed : .label ⟨.notTrue, n⟩ :: Code.load (.immediate 0) ::
      .label ⟨.notEnd, n + 1⟩ :: rest <:+ whole := behind [_, _, _] placed
  have hdone : .label ⟨.notEnd, n + 1⟩ :: rest <:+ whole := behind [_, _] hfailed
  by_cases hp : p
  · rw [truth_of_not (not_not_intro hp)] at h
    rw [truth_of hp]
    exact .jump rfl (jnzero_taken hsize (by decide)) hfailed (.loadAndEnd h)
  · rw [truth_of hp] at h
    rw [truth_of_not hp]
    exact .pass rfl (jnzero_stays hsize rfl) (.loadAndLeave hdone h)

/-- Code of a truth value, followed by its negation. -/
theorem negated_answers {p : Prop} [Decidable p] {code : Code × Nat} (hsize : 0 < bank.size)
    (placed : (Operation.negated code).1 ++ rest <:+ whole)
    (first : ∀ {rest}, code.1 ++ rest <:+ whole →
      Answers whole least ⟨rest, bank.write 0 (truth p)⟩ res done →
      Answers whole least ⟨code.1 ++ rest, bank⟩ res done)
    (h : Answers whole least ⟨rest, bank.write 0 (truth ¬ p)⟩ res done) :
    Answers whole least ⟨(Operation.negated code).1 ++ rest, bank⟩ res done := by
  have hcode : (Operation.negated code).1 ++ rest =
      code.1 ++ ((Operation.negation code.2).1 ++ rest) := List.append_assoc ..
  rw [hcode] at placed ⊢
  exact first placed (negation_answers hsize (behind code.1 placed) h)

end Comparisons

/-- **The code of an operator does what the operator means.** -/
theorem operation_answers {whole rest code : Code} {least n n' : Nat} {bank : Bank} {op : Operator}
    {left right : Operand} {x y : UInt32} (operation : Operation.code op left right n = (code, n'))
    (hsize : 0 < bank.size) (hacc : bank.accumulator = x) (hx : Reads bank left x)
    (hy : Denotes bank right y) (placed : code ++ rest <:+ whole) :
    Answers whole least ⟨code ++ rest, bank⟩ (op.apply x y)
      fun v e => e = ⟨rest, bank.write 0 v⟩ := by
  have hcode : code = (Operation.code op left right n).1 := by rw [operation]
  clear operation
  subst hcode
  have arrived : ∀ v, Answers whole least ⟨rest, bank.write 0 v⟩ (.ok v)
      fun v e => e = ⟨rest, bank.write 0 v⟩ := fun v => .ok rfl
  cases op with
  | add =>
    subst hacc
    exact .compute hy.operandValue (.inl rfl) rfl (arrived _)
  | subtract => exact .sub hy.operandValue hacc (arrived _)
  | multiply =>
    subst hacc
    exact .compute hy.operandValue (.inr (.inr (.inl rfl))) rfl (arrived _)
  | divide =>
    subst hacc
    by_cases hzero : y = 0
    · rw [Operator.apply, if_pos hzero]
      refine .divided ⟨.div, right, rest, rfl, ?_⟩
      show computeEffect bank .div right = _
      simp only [computeEffect, hy.operandValue, compute, if_pos hzero]
    · rw [Operator.apply, if_neg hzero]
      exact .compute hy.operandValue (.inr (.inr (.inr rfl))) (if_neg hzero) (arrived _)
  | equal => exact equal_answers hsize hacc hx hy placed (arrived _)
  | notEqual => exact negated_answers hsize placed (equal_answers hsize hacc hx hy) (arrived _)
  | greaterThan => exact greaterThan_answers hsize hacc hy.operandValue placed (arrived _)
  | lessThan => exact lessThan_answers hsize hacc hx hy placed (arrived _)
  | greaterThanOrEqual =>
    have htruth : truth (y ≤ x) = truth ¬ x < y := by simp only [UInt32.not_lt]
    rw [Operator.apply, htruth]
    exact negated_answers hsize placed (lessThan_answers hsize hacc hx hy) (arrived _)
  | lessThanOrEqual =>
    have htruth : truth (x ≤ y) = truth ¬ y < x := by simp only [UInt32.not_lt]
    rw [Operator.apply, htruth]
    exact negated_answers hsize placed (greaterThan_answers hsize hacc hy.operandValue) (arrived _)

end RegisterMachine.Structured
