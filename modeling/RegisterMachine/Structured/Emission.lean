import RegisterMachine.Structured.Error
import RegisterMachine.Structured.Emission.Operation
import RegisterMachine.Structured.Emission.Registers
import RegisterMachine.Structured.Tree.Printer

/-! # From trees to assembly

The code of an expression leaves its value in the accumulator. The code of a call is the body of the
function, emitted anew at every call: the arguments go to the registers of the parameters, and
`return` jumps behind the body. So a function that calls itself cannot be emitted.

* `expressionCode`, `statementCode`, `scopeCode`: the code of the parts of a tree. What a scope
  needs of a smaller depth is handed on as `enter`.
* `Tree.emit`: the assembly of a tree.
* `Refusal.endless`: a scope that contains itself. No tree that was read has one. If such a scope
  declares an array, the registers run out first, and that is an error like any other. -/

namespace RegisterMachine.Structured

open RegisterMachine.Assembly

/-- Why no code is emitted. -/
inductive Refusal
  | error (error : Error)
  | endless
deriving DecidableEq, Repr

/-- What emitting goes on with: the registers held and the number of the next label. -/
structure Emitter where
  registers : Registers := {}
  nextLabel : Nat := 0

abbrev Emit := StateT Emitter (Except Refusal)

/-- The targets of jumps, and the functions that are being emitted, the innermost first. -/
structure Surroundings where
  /-- Start and end of the innermost loop. -/
  loop : Option (Mark × Mark) := none
  /-- Where `return` jumps. -/
  exit : Option Mark := none
  inlining : List StatementId := []

/-- **The assembly of a tree**, with the registers of its variables. -/
structure Emission where
  code : Code
  symbols : List Symbol
  /-- The highest general register that the code names. -/
  registerCount : Nat
deriving Repr

namespace Emission

def assembly (e : Emission) : String := e.code.text

/-- The register of the first binding of a name. -/
def registerOf? (e : Emission) (name : String) : Option Nat :=
  (e.symbols.find? (·.name == name)).map Symbol.register

end Emission

/-- A statement in the comment above its code. -/
def Statement.summary : Statement → String
  | assign target expression initial _ =>
    (if initial then "declare " else "") ++ target.text ++ " = " ++ expression.text
  | branch condition _ _ _ => "if " ++ condition.text
  | loop condition _ _ => "while " ++ condition.text
  | block _ => "block"
  | leave _ => "break"
  | again _ => "continue"
  | give expression _ => "return " ++ expression.text
  | evaluate expression => expression.text
  | function identifier _ _ _ _ => "fn " ++ identifier.name
  | parameter identifier => "argument " ++ identifier.name

namespace Emit

def refuse {α : Type} (code : ErrorCode) (detail : String) (span : Span) : Emit α :=
  throw (.error ⟨code, detail, span⟩)

/-- A new label. -/
def freshMark (purpose : Purpose) : Emit Mark :=
  modifyGet fun e => (⟨purpose, e.nextLabel⟩, { e with nextLabel := e.nextLabel + 1 })

/-- The register of a scalar. -/
def scalar (name : String) (scope : ScopeId) : Emit Nat :=
  modifyGet fun e =>
    let (register, registers) := e.registers.getOrReserve name scope
    (register, { e with registers })

def temporary : Emit Nat :=
  modifyGet fun e =>
    let (register, registers) := e.registers.temporary
    (register, { e with registers })

def freeTemporary (register : Nat) : Emit Unit :=
  modify fun e => { e with registers := e.registers.freeTemporary register }

/-- The registers of an array. -/
def array (identifier : Identifier) (scope : ScopeId) (size : Nat) : Emit Nat := do
  let e ← get
  match e.registers.reserveArray? identifier.name scope size with
  | some (base, registers) =>
    set { e with registers }
    return base
  | none =>
    refuse .numberOutOfRange
      s!"array `{identifier.name}` of {size} elements does not fit in the registers left"
      identifier.span

/-- The first register of an array that has been declared. -/
def arrayBase (identifier : Identifier) : Emit Nat := do
  let e ← get
  match identifier.binding.bind (e.registers.arrayBase? identifier.name) with
  | some base => return base
  | none =>
    refuse .unknownIdentifier
      s!"array `{identifier.name}` has no registers at this point" identifier.span

/-- The code of an operator. -/
def operation (op : Operator) (left right : Operand) : Emit Code :=
  modifyGet fun e =>
    let (code, nextLabel) := Operation.code op left right e.nextLabel
    (code, { e with nextLabel })

/-- An expression that needs no code, as an operand. -/
def simple? : Expression → Emit (Option Operand)
  | .number value _ => return some (.immediate value)
  | .name identifier => do
    let register ← scalar identifier.name (identifier.binding.getD rootScope)
    return some (.register register)
  | _ => return none

/-- The register of a scalar or the registers of an array are given back, as the type says. -/
def releaseName (scope : ScopeId) (registers : Registers) (identifier : Identifier) : Registers :=
  match identifier.type with
  | some (.array _ size) => registers.releaseArray identifier.name scope size
  | _ => registers.release identifier.name scope

/-- The names that a scope declares are given up. -/
def releaseDeclared (statements : List Statement) (scope : ScopeId) : Emit Unit :=
  modify fun e =>
    { e with
      registers :=
        (statements.filterMap Statement.declared?).foldl (releaseName scope) e.registers }

/-- The parameters of a function are given up. -/
def releaseParameters (names : List String) (scope : ScopeId) : Emit Unit :=
  modify fun e =>
    { e with
      registers := names.foldl (fun registers name => registers.release name scope) e.registers }

/-- Temporaries are given up, the latest first. -/
def freeAll (registers : List Nat) : Emit Unit :=
  modify fun e =>
    { e with registers := registers.reverse.foldl Registers.freeTemporary e.registers }

/-- Staged values go to the registers of the parameters. -/
def passStaged (scope : ScopeId) : List (String × Nat) → Emit Code
  | [] => return []
  | (parameter, staged) :: rest => do
    let register ← scalar parameter scope
    let code ← passStaged scope rest
    return Code.load (.register staged) :: Code.store register :: code

/-- The function that a call is bound to: its parameters and its body. -/
def callee (t : Tree) (inlining : List StatementId) (identifier : Identifier)
    (resolved : Option StatementId) (span : Span) : Emit (StatementId × ScopeId × ScopeId) :=
  match resolved with
  | none =>
    refuse .functionNotFound s!"call to `{identifier.name}` was never resolved" identifier.span
  | some id =>
    if id ∈ inlining then
      refuse .recursiveCall s!"`{identifier.name}` calls itself and cannot be inlined" span
    else match t.statement? id with
      | some (.function _ parameters body _ _) => return (id, parameters, body)
      | _ => refuse .functionNotFound s!"`{identifier.name}` is not a function" identifier.span

end Emit

/-- The names that a scope declares. -/
def Tree.declaredNames (t : Tree) (scope : ScopeId) : List String :=
  ((t.scope scope).statements.toList.filterMap Statement.declared?).map Identifier.name

section Expressions

variable (t : Tree) (enter : Surroundings → ScopeId → Emit Code) (around : Surroundings)

/-- The body of a function, behind the code that passes the arguments. -/
def inlinedCode (callee : StatementId) (name : String) (parameters body : ScopeId)
    (passing : Code) : Emit Code := do
  let exit ← Emit.freshMark .returned
  let inner ← enter ⟨none, some exit, callee :: around.inlining⟩ body
  Emit.releaseParameters (t.declaredNames parameters) parameters
  return passing ++ .comment ("inline " ++ name) :: inner ++ [.label exit]

mutual

/-- **The code of an expression.** -/
def expressionCode : Expression → Emit Code
  | .number value _ => return [Code.load (.immediate value)]
  | .name identifier => do
    let register ← Emit.scalar identifier.name (identifier.binding.getD rootScope)
    return [Code.load (.register register)]
  | .element identifier index _ => do
    let base ← Emit.arrayBase identifier
    let code ← expressionCode index
    let address ← Emit.temporary
    Emit.freeTemporary address
    return code ++ [.operate .add (.immediate (.ofNat base)), Code.store address,
      Code.load (.pointer address)]
  | .binary op left right _ => do
    match ← Emit.simple? right with
    | some r =>
      match ← Emit.simple? left with
      | some l => do
        let code ← Emit.operation op l r
        return Code.load l :: code
      | none => do
        let first ← expressionCode left
        let spill ← Emit.temporary
        let code ← Emit.operation op (.register spill) r
        Emit.freeTemporary spill
        return first ++ Code.store spill :: code
    | none => do
      let first ← expressionCode left
      let l ← Emit.temporary
      let second ← expressionCode right
      let r ← Emit.temporary
      let code ← Emit.operation op (.register l) (.register r)
      Emit.freeTemporary r
      Emit.freeTemporary l
      return first ++ Code.store l :: second ++ Code.store r :: Code.load (.register l) :: code
  | .call identifier arguments resolved span => do
    let (callee, parameters, body) ←
      Emit.callee t around.inlining identifier resolved span
    let names := t.declaredNames parameters
    let passing ←
      if arguments.any Expression.hasCall then do
        let (code, staged) ← stagedCode arguments
        let moves ← Emit.passStaged parameters (names.zip staged)
        Emit.freeAll staged
        pure (code ++ moves)
      else passingCode parameters names arguments
    inlinedCode t enter around callee identifier.name parameters body passing
  | .new _ span =>
    Emit.refuse .invalidExpression "array initialization outside of a declaration" span

/-- Arguments that call functions themselves are all computed into temporaries first, for a nested
call could reuse the registers of the parameters. -/
def stagedCode : List Expression → Emit (Code × List Nat)
  | [] => return ([], [])
  | argument :: rest => do
    let code ← expressionCode argument
    let temporary ← Emit.temporary
    let (others, staged) ← stagedCode rest
    return (code ++ Code.store temporary :: others, temporary :: staged)

/-- Other arguments are computed straight into the registers of the parameters. -/
def passingCode (scope : ScopeId) : List String → List Expression → Emit Code
  | parameter :: parameters, argument :: arguments => do
    let code ← expressionCode argument
    let register ← Emit.scalar parameter scope
    let others ← passingCode scope parameters arguments
    return code ++ Code.store register :: others
  | _, _ => return []

end

/-- The register that holds the address of an array's element, a temporary. -/
def addressCode (identifier : Identifier) (index : Expression) : Emit (Code × Nat) := do
  let base ← Emit.arrayBase identifier
  let code ← expressionCode t enter around index
  let address ← Emit.temporary
  return (code ++ [.operate .add (.immediate (.ofNat base)), Code.store address], address)

/-- The code of an assignment in this scope. -/
def assignmentCode (scope : ScopeId) (initial : Bool) (expression : Expression) :
    Target → Emit Code
  | .name identifier =>
    match initial, expression with
    | true, .new type _ => do
      let base ← Emit.array identifier scope type.width
      return Code.load (.immediate 0) ::
        (List.range type.width).map fun offset => Code.store (base + offset)
    | _, _ => do
      let code ← expressionCode t enter around expression
      let register ← Emit.scalar identifier.name (identifier.binding.getD scope)
      return code ++ [Code.store register]
  | .element identifier index _ => do
    let (target, address) ← addressCode t enter around identifier index
    let code ← expressionCode t enter around expression
    Emit.freeTemporary address
    return target ++ code ++ [.operate .store (.pointer address)]

/-- **The code of a statement** in this scope. -/
def statementCode (scope : ScopeId) : Statement → Emit Code
  | .assign target expression initial _ =>
    assignmentCode t enter around scope initial expression target
  | .branch condition body otherwise _ => do
    let test ← expressionCode t enter around condition
    let done ← Emit.freshMark .ifEnd
    match otherwise with
    | some other => do
      let failed ← Emit.freshMark .ifElse
      let first ← enter around body
      let second ← enter around other
      return test ++ .jump .jzero failed :: first ++ .jump .goto done :: .label failed :: second ++
        [.label done]
    | none => do
      let first ← enter around body
      return test ++ .jump .jzero done :: first ++ [.label done]
  | .loop condition body _ => do
    let start ← Emit.freshMark .whileStart
    let done ← Emit.freshMark .whileEnd
    let test ← expressionCode t enter around condition
    let inner ← enter { around with loop := some (start, done) } body
    return .label start :: test ++ .jump .jzero done :: inner ++ [.jump .goto start, .label done]
  | .block body => enter around body
  | .leave _ => return around.loop.toList.map fun (_, done) => .jump .goto done
  | .again _ => return around.loop.toList.map fun (start, _) => .jump .goto start
  | .give expression _ => do
    let code ← expressionCode t enter around expression
    return code ++ around.exit.toList.map (.jump .goto)
  | .evaluate expression => expressionCode t enter around expression
  | .function _ _ _ _ _ => return []
  | .parameter _ => return []

/-- A statement's code under its comment; declarations of functions and parameters have none. -/
def commentedCode (scope : ScopeId) (s : Statement) : Emit Code :=
  match s with
  | .function _ _ _ _ _ | .parameter _ => return []
  | _ => do
    let code ← statementCode t enter around scope s
    return .comment s.summary :: code

end Expressions

/-- **The code of a scope**, with at most `depth` scopes inside each other. The names that the scope
declares are given up behind it. -/
def scopeCode (t : Tree) : (depth : Nat) → Surroundings → ScopeId → Emit Code
  | 0, _, _ => throw .endless
  | depth + 1, around, scope => do
    let statements := (t.scope scope).statements.toList
    let codes ← statements.mapM (commentedCode t (scopeCode t depth) around scope)
    Emit.releaseDeclared statements scope
    return codes.flatten

namespace Tree

/-- The number of functions that are declared anywhere. -/
def functionCount (t : Tree) : Nat :=
  (t.scopes.toList.flatMap fun scope => scope.statements.toList.filter (·.isFunction)).length

/-- No more scopes than this can be inside each other. A scope that comes again inside itself, with
no further function being emitted, comes again and again unless more registers are held each time;
and when all are held, no array is left to be declared. -/
def emissionDepth (t : Tree) : Nat :=
  t.scopes.size * (t.functionCount + 1) * (Machine.maxRegisters + 2)

/-- **The assembly of a tree.** -/
def emit (t : Tree) : Except Refusal Emission :=
  match (scopeCode t t.emissionDepth {} rootScope).run {} with
  | .error refusal => .error refusal
  | .ok (code, e) =>
    .ok ⟨code ++ [.halt], e.registers.symbols.toList, e.registers.highest⟩

/-- What is emitted is the code of the root scope, with `END` behind it. -/
theorem emit_eq (t : Tree) : t.emit = (scopeCode t t.emissionDepth {} rootScope {}).map
    fun answer =>
      ⟨answer.1 ++ [.halt], answer.2.registers.symbols.toList, answer.2.registers.highest⟩ := by
  rw [emit, StateT.run]
  cases scopeCode t t.emissionDepth {} rootScope {} <;> rfl

end Tree

end RegisterMachine.Structured
