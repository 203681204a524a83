import RegisterMachine.Span
import RegisterMachine.Structured.Operator
import RegisterMachine.Structured.ValueType

/-! # Syntax trees

The scopes of a program lie in a row and are named by their place in it; scope 0 is the root. A
scope has statements of its own and shares other scopes, which it may search: a block shares the
scope around it, the body of a function shares the scope of its parameters, and that the scope where
the function is declared.

* A name knows the scope that declares it (`Identifier.binding`), a call the statement that declares
  its function (`Expression.call`).
* `Statement.declared?`: the name that a statement declares in its scope. -/

namespace RegisterMachine.Structured

/-- The place of a scope in the row of scopes. -/
abbrev ScopeId := Nat

def rootScope : ScopeId := 0

/-- A statement, by its scope and its place there. -/
structure StatementId where
  scope : ScopeId
  index : Nat
deriving DecidableEq, Repr, Inhabited

structure Identifier where
  name : String
  type : Option ValueType := none
  /-- The scope that declares the name. -/
  binding : Option ScopeId := none
  span : Span := {}
deriving DecidableEq, Repr, Inhabited

inductive Expression
  | name (identifier : Identifier)
  | number (value : UInt32) (span : Span)
  | binary (operator : Operator) (left right : Expression) (span : Span)
  | element (identifier : Identifier) (index : Expression) (span : Span)
  /-- `new int[5]` -/
  | new (type : ValueType) (span : Span)
  | call (identifier : Identifier) (arguments : List Expression) (resolved : Option StatementId)
      (span : Span)
deriving Repr, Inhabited

/-- What an assignment assigns to. -/
inductive Target
  | name (identifier : Identifier)
  | element (identifier : Identifier) (index : Expression) (span : Span)
deriving Repr, Inhabited

def Target.identifier : Target → Identifier
  | name identifier => identifier
  | element identifier _ _ => identifier

inductive Statement
  /-- A declaration is the initial assignment to its name. -/
  | assign (target : Target) (expression : Expression) (initial : Bool) (span : Span)
  | branch (condition : Expression) (body : ScopeId) (otherwise : Option ScopeId) (span : Span)
  | loop (condition : Expression) (body : ScopeId) (span : Span)
  | block (body : ScopeId)
  | leave (span : Span)
  | again (span : Span)
  | function (identifier : Identifier) (parameters body : ScopeId) (returns : Option ValueType)
      (span : Span)
  | parameter (identifier : Identifier)
  | give (expression : Expression) (span : Span)
  /-- A call for its effects. -/
  | evaluate (expression : Expression)
deriving Repr, Inhabited

structure Scope where
  shared : List ScopeId := []
  statements : Array Statement := #[]
deriving Repr, Inhabited

structure Tree where
  scopes : Array Scope := #[{}]
deriving Repr, Inhabited

namespace Expression

def span : Expression → Span
  | name identifier => identifier.span
  | number _ span | binary _ _ _ span | element _ _ span | new _ span | call _ _ _ span => span

/-- Evaluating the expression calls a function. -/
def hasCall : Expression → Bool
  | call _ _ _ _ => true
  | binary _ left right _ => left.hasCall || right.hasCall
  | element _ index _ => index.hasCall
  | name _ | number _ _ | new _ _ => false

end Expression

namespace Statement

/-- **The name that a statement declares** in its scope. -/
def declared? : Statement → Option Identifier
  | assign (.name identifier) _ true _ | parameter identifier => some identifier
  | _ => none

/-- The statement declares a function. -/
def isFunction : Statement → Bool
  | function _ _ _ _ _ => true
  | _ => false

/-- The statement declares a function of this name. -/
def declaresFunction (name : String) : Statement → Bool
  | function identifier _ _ _ _ => identifier.name == name
  | _ => false

end Statement

namespace Tree

/-- A scope of the tree; outside the row of scopes, an empty one. -/
def scope (t : Tree) (id : ScopeId) : Scope := t.scopes.getD id {}

def statement? (t : Tree) (id : StatementId) : Option Statement :=
  (t.scopes[id.scope]?).bind fun scope => scope.statements[id.index]?

/-- Another scope, empty, with its place. -/
def addScope (t : Tree) (shared : List ScopeId) : Tree × ScopeId :=
  (⟨t.scopes.push { shared }⟩, t.scopes.size)

/-- Another statement at the end of a scope. -/
def push (t : Tree) (id : ScopeId) (s : Statement) : Tree :=
  ⟨t.scopes.modify id fun scope => { scope with statements := scope.statements.push s }⟩

end Tree

end RegisterMachine.Structured
