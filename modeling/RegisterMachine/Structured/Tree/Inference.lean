import RegisterMachine.Structured.Tree.Visibility

/-! # Types of untyped declarations

A declaration with `var` takes the type of its initial value, and an untyped name that a function
returns the type of its declaration. Nothing is unified and nothing refused. The statements are
taken in the order of scopes, so a name knows the types found before it.

* `Tree.typeOf?`: the type of an expression, as far as it is known.
* `Tree.inferTypes`: the tree with the types filled in. -/

namespace RegisterMachine.Structured

namespace Tree

/-- The type of a name: its own, or that of its declaration. -/
def typeOfName? (t : Tree) (identifier : Identifier) : Option ValueType :=
  match identifier.type, identifier.binding with
  | some type, _ => some type
  | none, some binding =>
    (t.declaration? binding identifier.name).bind fun (_, declaration) => declaration.type
  | none, none => none

/-- The declared return type of a function. -/
def returnType? (t : Tree) (id : StatementId) : Option ValueType :=
  match t.statement? id with
  | some (.function _ _ _ returns _) => returns
  | _ => none

/-- **The type of an expression**, as far as it is known. -/
def typeOf? (t : Tree) : Expression → Option ValueType
  | .number _ _ => some .int
  | .name identifier => t.typeOfName? identifier
  | .binary op _ _ _ => some (.ofOperator op)
  | .element identifier _ _ => (t.typeOfName? identifier).map ValueType.element
  | .new type _ => some type
  | .call _ _ resolved _ => resolved.bind t.returnType?

/-- The statement with its type filled in. -/
def inferStatement (t : Tree) : Statement → Statement
  | .assign (.name identifier) expression true span =>
    match identifier.type with
    | some _ => .assign (.name identifier) expression true span
    | none =>
      .assign (.name { identifier with type := t.typeOf? expression }) expression true span
  | .give (.name identifier) span =>
    .give (.name { identifier with type := t.typeOfName? identifier }) span
  | other => other

/-- One statement of the tree replaced by its typed form. -/
def inferAt (t : Tree) (id : StatementId) : Tree :=
  match t.statement? id with
  | none => t
  | some s =>
    ⟨t.scopes.modify id.scope fun scope =>
      { scope with statements := scope.statements.setIfInBounds id.index (t.inferStatement s) }⟩

/-- The places of all statements, in order. -/
def statementIds (t : Tree) : List StatementId :=
  t.scopes.toList.zipIdx.flatMap fun (scope, id) =>
    (List.range scope.statements.size).map fun index => ⟨id, index⟩

/-- **The tree with its types filled in.** -/
def inferTypes (t : Tree) : Tree := t.statementIds.foldl inferAt t

end Tree

end RegisterMachine.Structured
