import RegisterMachine.Structured.Error
import RegisterMachine.Structured.Tree.Visibility

/-! # Binding calls to functions

A call is bound to the function of its name that is visible from the scope where the call stands,
also to one that is declared behind it. The function must have as many parameters as the call has
arguments. Calls are bound in the order of scopes and statements, the arguments of a call before
the call itself, and the first that cannot be bound is an error. -/

namespace RegisterMachine.Structured

/-- The number of parameters of a function. -/
def Tree.parameterCount (t : Tree) (id : StatementId) : Nat :=
  match t.statement? id with
  | some (.function _ parameters _ _ _) => (t.scope parameters).statements.size
  | _ => 0

/-- **The function that a call in this scope is bound to.** -/
def Tree.callee (t : Tree) (scope : ScopeId) (identifier : Identifier) (given : Nat)
    (span : Span) : Except Error StatementId :=
  match t.function? scope identifier.name with
  | none => .error
    ⟨.functionNotFound, s!"function `{identifier.name}` not found", identifier.span⟩
  | some id =>
    let expected := t.parameterCount id
    if expected = given then .ok id
    else .error ⟨.functionArgumentMismatch,
      s!"function `{identifier.name}` takes {expected} argument(s) but {given} were given", span⟩

namespace Expression

mutual

/-- The expression with its calls bound. -/
def bindCalls (t : Tree) (scope : ScopeId) : Expression → Except Error Expression
  | name identifier => .ok (name identifier)
  | number value span => .ok (number value span)
  | new type span => .ok (new type span)
  | binary op left right span => do
    let left ← left.bindCalls t scope
    let right ← right.bindCalls t scope
    return binary op left right span
  | element identifier index span => do
    let index ← index.bindCalls t scope
    return element identifier index span
  | call identifier arguments _ span => do
    let arguments ← bindAll t scope arguments
    let callee ← t.callee scope identifier arguments.length span
    return call identifier arguments (some callee) span

def bindAll (t : Tree) (scope : ScopeId) : List Expression → Except Error (List Expression)
  | [] => .ok []
  | e :: rest => do
    let e ← e.bindCalls t scope
    let rest ← bindAll t scope rest
    return e :: rest

end

end Expression

/-- The target with the calls in its index bound. -/
def Target.bindCalls (t : Tree) (scope : ScopeId) : Target → Except Error Target
  | name identifier => .ok (name identifier)
  | element identifier index span => do
    let index ← index.bindCalls t scope
    return element identifier index span

/-- The statement with the calls in its own expressions bound. -/
def Statement.bindCalls (t : Tree) (scope : ScopeId) : Statement → Except Error Statement
  | assign target expression initial span => do
    let target ← target.bindCalls t scope
    let expression ← expression.bindCalls t scope
    return assign target expression initial span
  | branch condition body otherwise span => do
    let condition ← condition.bindCalls t scope
    return branch condition body otherwise span
  | loop condition body span => do
    let condition ← condition.bindCalls t scope
    return loop condition body span
  | give expression span => do
    let expression ← expression.bindCalls t scope
    return give expression span
  | evaluate expression => do
    let expression ← expression.bindCalls t scope
    return evaluate expression
  | other => .ok other

/-- The scope with all its calls bound. -/
def Tree.bindScope (t : Tree) (id : ScopeId) (scope : Scope) : Except Error Scope :=
  (scope.statements.mapM (Statement.bindCalls t id)).map fun statements =>
    { scope with statements }

/-- **The tree with every call bound.** -/
def Tree.bindCalls (t : Tree) : Except Error Tree :=
  (t.scopes.zipIdx.mapM fun (scope, id) => t.bindScope id scope).map fun scopes => ⟨scopes⟩

end RegisterMachine.Structured
