import RegisterMachine.Structured.Emission

/-! # What a program means

The meaning of a tree, by itself: no registers and no code. A store holds the contents of bindings,
each a name with the scope that declares it. Operands and arguments are evaluated from left to
right, the index of an element before the value that is assigned to it. A scope that is entered
declares nothing yet, and its bindings end with it.

* `Operator.apply`: arithmetic of words; addition and multiplication wrap, subtraction stops at
  zero.
* `result`, `statementRun`, `scopeRun`: expressions, statements and scopes. What they need of scopes
  is handed on as `enter`, and loops make so many turns, as far as the fuel goes.
* `Tree.run`: the store in which a program ends.

A run is `stuck` where it has no meaning: at a binding that is not declared yet, outside an array,
or where a value is needed from a call that came to the end of its body. Neither can a name without
a declaration, a call without its function and arguments or `break` outside of a loop be given one;
no source is read to such a tree. -/

namespace RegisterMachine.Structured

/-- What a binding holds. -/
inductive Cell
  | scalar (value : UInt32)
  | array (values : List UInt32)
deriving DecidableEq, Repr

/-- A name with the scope that declares it. -/
structure Binding where
  name : String
  scope : ScopeId
deriving DecidableEq, Repr

/-- **The contents of the bindings** that have been declared. -/
abbrev Store := Binding → Option Cell

namespace Store

def empty : Store := fun _ => none

/-- The store with new contents of one binding. -/
def set (σ : Store) (b : Binding) (c : Cell) : Store := fun b' => if b' = b then some c else σ b'

/-- The store without the bindings of a scope. -/
def erase (σ : Store) (scope : ScopeId) : Store := fun b => if b.scope = scope then none else σ b

/-- The parameters of a scope bound to values. -/
def bind (σ : Store) (scope : ScopeId) : List String → List UInt32 → Store
  | name :: names, value :: values => bind (σ.set ⟨name, scope⟩ (.scalar value)) scope names values
  | _, _ => σ

end Store

/-- Why a run does not end. -/
inductive Interruption
  | divided
  /-- There is no meaning. -/
  | stuck
  /-- The fuel was not enough. -/
  | unfinished
deriving DecidableEq, Repr

abbrev Eval := StateT Store (Except Interruption)

/-- How a statement ends. -/
inductive Signal
  | next
  | leave
  | again
  | returned (value : UInt32)
deriving DecidableEq, Repr

/-- A truth value as a word. -/
def truth (b : Bool) : UInt32 := if b then 1 else 0

/-- **The result of an operation.** -/
def Operator.apply (op : Operator) (x y : UInt32) : Except Interruption UInt32 :=
  match op with
  | .add => .ok (x + y)
  | .subtract => .ok (if y ≤ x then x - y else 0)
  | .multiply => .ok (x * y)
  | .divide => if y = 0 then .error .divided else .ok (x / y)
  | .equal => .ok (truth (x = y))
  | .notEqual => .ok (truth (x ≠ y))
  | .greaterThan => .ok (truth (y < x))
  | .lessThan => .ok (truth (x < y))
  | .greaterThanOrEqual => .ok (truth (y ≤ x))
  | .lessThanOrEqual => .ok (truth (x ≤ y))

namespace Eval

def stuck {α : Type} : Eval α := fun _ => .error .stuck

/-- The binding that a name stands for. -/
def locate (i : Identifier) : Eval Binding := fun σ =>
  match i.binding with
  | some scope => .ok (⟨i.name, scope⟩, σ)
  | none => .error .stuck

/-- The value of a scalar. -/
def readScalar (i : Identifier) : Eval UInt32 := do
  let b ← locate i
  match (← get) b with
  | some (.scalar value) => return value
  | _ => stuck

/-- The value of an element of an array. -/
def readElement (i : Identifier) (index : UInt32) : Eval UInt32 := do
  let b ← locate i
  match (← get) b with
  | some (.array values) =>
    match values[index.toNat]? with
    | some value => return value
    | none => stuck
  | _ => stuck

/-- A scalar that is declared is given a new value. -/
def assignScalar (i : Identifier) (value : UInt32) : Eval Unit := do
  let b ← locate i
  match (← get) b with
  | some (.scalar _) => modify (·.set b (.scalar value))
  | _ => stuck

/-- An element of an array that is declared is given a new value. -/
def assignElement (i : Identifier) (index value : UInt32) : Eval Unit := do
  let b ← locate i
  match (← get) b with
  | some (.array values) =>
    if index.toNat < values.length then
      modify (·.set b (.array (values.set index.toNat value)))
    else stuck
  | _ => stuck

/-- The result of a call that has to have one. -/
def needed : Option UInt32 → Eval UInt32
  | some value => return value
  | none => stuck

/-- **The turns of a loop**, as many as are left. -/
def loop (test : Eval UInt32) (body : Eval Signal) : (turns : Nat) → Eval Signal
  | 0 => fun _ => .error .unfinished
  | turns + 1 => do
    if (← test) = 0 then return .next
    else
      match ← body with
      | .next | .again => loop test body turns
      | .leave => return .next
      | .returned value => return .returned value

end Eval

section Scopes

variable (t : Tree) (enter : ScopeId → Eval Signal)

/-- **A call**: the parameters are bound to the values, and the body runs up to a `return`. -/
def invoke (parameters body : ScopeId) (values : List UInt32) : Eval (Option UInt32) := do
  modify fun σ => (σ.erase parameters).bind parameters (t.declaredNames parameters) values
  let signal ← enter body
  modify (·.erase parameters)
  match signal with
  | .next => return none
  | .returned value => return some value
  | .leave | .again => Eval.stuck

/-- A call can be made with these arguments. -/
def Tree.callable? (t : Tree) (resolved : Option StatementId) (given : Nat) :
    Option (ScopeId × ScopeId) :=
  match resolved.bind t.statement? with
  | some (.function _ parameters body _ _) =>
    if (t.declaredNames parameters).length = given then some (parameters, body) else none
  | _ => none

mutual

/-- **The result of an expression**: a value, or none from a call that came to the end of its
body. -/
def result : Expression → Eval (Option UInt32)
  | .number value _ => return some value
  | .name identifier => do
    let value ← Eval.readScalar identifier
    return some value
  | .element identifier index _ => do
    let k ← Eval.needed (← result index)
    let value ← Eval.readElement identifier k
    return some value
  | .binary op left right _ => do
    let x ← Eval.needed (← result left)
    let y ← Eval.needed (← result right)
    let value ← StateT.lift (op.apply x y)
    return some value
  | .call _ arguments resolved _ =>
    match t.callable? resolved arguments.length with
    | some (parameters, body) => do
      let values ← results arguments
      invoke t enter parameters body values
    | none => Eval.stuck
  | .new _ _ => Eval.stuck

/-- The values of arguments. -/
def results : List Expression → Eval (List UInt32)
  | [] => return []
  | e :: rest => do
    let value ← Eval.needed (← result e)
    let values ← results rest
    return value :: values

end

/-- The value of an expression. -/
def value (e : Expression) : Eval UInt32 := do Eval.needed (← result t enter e)

variable (turns : Nat)

/-- **The run of a statement** of this scope. -/
def statementRun (scope : ScopeId) : Statement → Eval Signal
  | .assign (.name identifier) (.new type _) true _ => do
    modify (·.set ⟨identifier.name, scope⟩ (.array (List.replicate type.width 0)))
    return .next
  | .assign (.name identifier) e true _ => do
    let v ← value t enter e
    modify (·.set ⟨identifier.name, scope⟩ (.scalar v))
    return .next
  | .assign (.name identifier) e false _ => do
    let v ← value t enter e
    Eval.assignScalar identifier v
    return .next
  | .assign (.element identifier index _) e _ _ => do
    let k ← value t enter index
    let v ← value t enter e
    Eval.assignElement identifier k v
    return .next
  | .branch condition body otherwise _ => do
    if (← value t enter condition) = 0 then
      match otherwise with
      | some other => enter other
      | none => return .next
    else enter body
  | .loop condition body _ => Eval.loop (value t enter condition) (enter body) turns
  | .block body => enter body
  | .leave _ => return .leave
  | .again _ => return .again
  | .give e _ => do
    let v ← value t enter e
    return .returned v
  | .evaluate e => do
    let _ ← result t enter e
    return .next
  | .function _ _ _ _ _ | .parameter _ => return .next

/-- The run of statements, up to one that does not go on. -/
def statementsRun (scope : ScopeId) : List Statement → Eval Signal
  | [] => return .next
  | s :: rest => do
    match ← statementRun t enter turns scope s with
    | .next => statementsRun scope rest
    | signal => return signal

end Scopes

/-! ### The run of an assignment -/

section Assignments

variable {t : Tree} {enter : ScopeId → Eval Signal} {e : Expression}

theorem statementRun_declare (turns : Nat) (scope : ScopeId) (i : Identifier) (span : Span)
    (h : ∀ type place, e ≠ .new type place) :
    statementRun t enter turns scope (.assign (.name i) e true span) =
      (value t enter e >>= fun v =>
        modify (·.set ⟨i.name, scope⟩ (.scalar v)) >>= fun _ => pure .next) := by
  cases e with
  | new type place => exact absurd rfl (h type place)
  | _ => rfl

theorem statementRun_assign (turns : Nat) (scope : ScopeId) (i : Identifier) (span : Span) :
    statementRun t enter turns scope (.assign (.name i) e false span) =
      (value t enter e >>= fun v => Eval.assignScalar i v >>= fun _ => pure .next) := by
  cases e <;> rfl

theorem statementRun_assignElement (turns : Nat) (scope : ScopeId) (i : Identifier)
    (index : Expression) (initial : Bool) (place span : Span) :
    statementRun t enter turns scope (.assign (.element i index place) e initial span) =
      (value t enter index >>= fun k => value t enter e >>= fun v =>
        Eval.assignElement i k v >>= fun _ => pure .next) := by
  cases e <;> cases initial <;> rfl

end Assignments

/-- **The run of a scope.** -/
def scopeRun (t : Tree) : (fuel : Nat) → ScopeId → Eval Signal
  | 0, _ => fun _ => .error .unfinished
  | fuel + 1, scope => do
    modify (·.erase scope)
    let signal ←
      statementsRun t (scopeRun t fuel) fuel scope (t.scope scope).statements.toList
    modify (·.erase scope)
    return signal

/-- **The run of a program**: the bindings of the root in the end. -/
def Tree.run (t : Tree) (fuel : Nat) : Except Interruption Store :=
  match statementsRun t (scopeRun t fuel) fuel rootScope
      (t.scope rootScope).statements.toList Store.empty with
  | .ok (.next, σ) => .ok σ
  | .ok _ => .error .stuck
  | .error interruption => .error interruption

end RegisterMachine.Structured
