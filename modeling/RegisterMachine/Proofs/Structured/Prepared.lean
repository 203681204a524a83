import RegisterMachine.Proofs.Structured.Meaning

/-! # Names that are declared before they are read

A name is bound to a declaration before it. A function can be called before its declaration though,
and its body may then read names whose declarations have not been run. So the declarations are
followed as they are run, into the bodies of the functions that are called: what a scope declares is
known to the statements behind, to the scopes inside and in the functions called there.

* `Statement.declares`, `Tree.parametersOf`: the scalars that a statement declares, and those that a
  call does.
* `Expression.prepared`, `Statement.prepared`, `scopePrepared`: all names that are read are known.
  What a scope comes to is handed on as `enter`.
* `Tree.Prepared`: a program reads no name before its declaration. -/

namespace RegisterMachine.Structured

/-- The name stands for one of these scalars. -/
def Identifier.isKnown (known : List Binding) (i : Identifier) : Bool :=
  match i.binding with
  | some scope => known.contains ⟨i.name, scope⟩
  | none => false

/-- **The scalars that a statement declares** in its scope. -/
def Statement.declares (scope : ScopeId) : Statement → List Binding
  | assign (.name _) (.new _ _) true _ => []
  | assign (.name i) _ true _ => [⟨i.name, scope⟩]
  | _ => []

/-- The parameters that a scope declares. -/
def Tree.parametersOf (t : Tree) (parameters : ScopeId) : List Binding :=
  (t.declaredNames parameters).map fun name => ⟨name, parameters⟩

section Scopes

variable (t : Tree) (enter : List Binding → ScopeId → Bool) (known : List Binding)

namespace Expression

mutual

/-- **The names that an expression reads are known**, and so are those that the functions read that
it calls. -/
def prepared : Expression → Bool
  | name i => i.isKnown known
  | number _ _ | new _ _ => true
  | binary _ left right _ => left.prepared && right.prepared
  | element _ index _ => index.prepared
  | call _ arguments resolved _ =>
    preparedAll arguments &&
      match t.callable? resolved arguments.length with
      | some (parameters, body) => enter (t.parametersOf parameters ++ known) body
      | none => false

def preparedAll : List Expression → Bool
  | [] => true
  | e :: rest => e.prepared && preparedAll rest

end

end Expression

/-- **The names that a statement reads are known.** -/
def Statement.prepared : Statement → Bool
  | assign (.name _) e _ _ => e.prepared t enter known
  | assign (.element _ index _) e _ _ => index.prepared t enter known && e.prepared t enter known
  | branch condition body otherwise _ =>
    condition.prepared t enter known && enter known body && otherwise.all (enter known)
  | loop condition body _ => condition.prepared t enter known && enter known body
  | block body => enter known body
  | give e _ | evaluate e => e.prepared t enter known
  | leave _ | again _ | function _ _ _ _ _ | parameter _ => true

/-- A row of statements, each with what those before it declare. -/
def statementsPrepared (scope : ScopeId) : List Binding → List Statement → Bool
  | _, [] => true
  | known, s :: rest =>
    s.prepared t enter known && statementsPrepared scope (s.declares scope ++ known) rest

end Scopes

/-- **The names that a scope reads are known**, with at most `depth` scopes inside each other. -/
def scopePrepared (t : Tree) : (depth : Nat) → List Binding → ScopeId → Bool
  | 0, _, _ => false
  | depth + 1, known, scope =>
    statementsPrepared t (scopePrepared t depth) scope known (t.scope scope).statements.toList

/-- **A program reads no name before its declaration.** -/
def Tree.Prepared (t : Tree) : Prop := scopePrepared t t.emissionDepth [] rootScope = true

instance (t : Tree) : Decidable t.Prepared := inferInstanceAs (Decidable (_ = true))

end RegisterMachine.Structured
