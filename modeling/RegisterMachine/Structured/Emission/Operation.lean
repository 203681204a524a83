import RegisterMachine.Structured.Operator
import RegisterMachine.Structured.Emission.Code

/-! # Code of the operators

The accumulator holds the left operand when the code starts, and the result when it ends. Arithmetic
has opcodes of its own. Comparisons are made of `SUB`, which stops at zero, and jumps on zero, and
give 1 or 0; no register but the accumulator is written.

* `greaterThan`: `L - R` is not zero.
* `equal`: neither `L - R` nor `R - L` is.
* `lessThan`: `R - L` is not zero, and not `L = R`.
* `negated`: 0 for anything but zero, 1 for zero.

The number is that of the next label; the code comes with the number behind its own labels. -/

namespace RegisterMachine.Structured

open RegisterMachine.Assembly

namespace Operation

/-- `L > R` -/
def greaterThan (right : Operand) (n : Nat) : Code × Nat :=
  let done : Mark := ⟨.greaterEnd, n⟩
  ([.operate .sub right,
    .jump .jzero done,
    Code.load (.immediate 1),
    .label done], n + 1)

/-- `L = R` -/
def equal (left right : Operand) (n : Nat) : Code × Nat :=
  let failed : Mark := ⟨.equalFailed, n⟩
  let done : Mark := ⟨.equalEnd, n + 1⟩
  ([.operate .sub right,
    .jump .jnzero failed,
    Code.load right,
    .operate .sub left,
    .jump .jnzero failed,
    Code.load (.immediate 1),
    .jump .goto done,
    .label failed,
    Code.load (.immediate 0),
    .label done], n + 2)

/-- `L < R` -/
def lessThan (left right : Operand) (n : Nat) : Code × Nat :=
  let failed : Mark := ⟨.lessFailed, n⟩
  let done : Mark := ⟨.lessEnd, n + 1⟩
  let (same, n) := equal left right (n + 2)
  ([Code.load right,
    .operate .sub left,
    .jump .jzero failed,
    Code.load left] ++ same ++
   [.jump .jnzero failed,
    Code.load (.immediate 1),
    .jump .goto done,
    .label failed,
    Code.load (.immediate 0),
    .label done], n)

/-- The opposite of the truth value in the accumulator. -/
def negation (n : Nat) : Code × Nat :=
  let truthy : Mark := ⟨.notTrue, n⟩
  let done : Mark := ⟨.notEnd, n + 1⟩
  ([.jump .jnzero truthy,
    Code.load (.immediate 1),
    .jump .goto done,
    .label truthy,
    Code.load (.immediate 0),
    .label done], n + 2)

/-- Code and then its negation. -/
def negated (code : Code × Nat) : Code × Nat :=
  let (opposite, n) := negation code.2
  (code.1 ++ opposite, n)

/-- **The code of an operator.** -/
def code (op : Operator) (left right : Operand) (n : Nat) : Code × Nat :=
  match op with
  | .add => ([.operate .add right], n)
  | .subtract => ([.operate .sub right], n)
  | .multiply => ([.operate .mul right], n)
  | .divide => ([.operate .div right], n)
  | .equal => equal left right n
  | .notEqual => negated (equal left right n)
  | .greaterThan => greaterThan right n
  | .lessThan => lessThan left right n
  | .greaterThanOrEqual => negated (lessThan left right n)
  | .lessThanOrEqual => negated (greaterThan right n)

end Operation

end RegisterMachine.Structured
