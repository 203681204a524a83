import RegisterMachine.Structured.Tree

/-! # What a scope sees

A scope sees its own statements, in order, and then what the scopes that it shares see, one after
the other. The first hit counts, so an inner declaration hides an outer one. A chain of shared
scopes is never longer than the row of scopes, unless it runs in a circle.

* `declaration?`: the visible declaration of a name, with its scope.
* `function?`: the visible declaration of a function. -/

namespace RegisterMachine.Structured.Tree

/-- The first statement for which `find` has an answer, along chains of at most `depth` scopes. -/
def searchTo {α : Type} (t : Tree) (find : Statement → Option α) :
    (depth : Nat) → ScopeId → Option (StatementId × α)
  | 0, _ => none
  | depth + 1, id =>
    match t.scopes[id]? with
    | none => none
    | some scope =>
      match scope.statements.toList.zipIdx.findSome? fun (s, index) =>
          (find s).map fun found => ((⟨id, index⟩ : StatementId), found) with
      | some hit => some hit
      | none => scope.shared.findSome? (searchTo t find depth)

/-- **The first visible statement for which `find` has an answer.** -/
def search {α : Type} (t : Tree) (id : ScopeId) (find : Statement → Option α) :
    Option (StatementId × α) :=
  t.searchTo find t.scopes.size id

/-- **The visible declaration of a name**, with the scope that declares it. -/
def declaration? (t : Tree) (id : ScopeId) (name : String) : Option (ScopeId × Identifier) :=
  (t.search id fun s => s.declared?.filter (·.name == name)).map fun (place, identifier) =>
    (place.scope, identifier)

/-- **The visible function of a name.** -/
def function? (t : Tree) (id : ScopeId) (name : String) : Option StatementId :=
  (t.search id fun s => if s.declaresFunction name then some () else none).map (·.1)

end RegisterMachine.Structured.Tree
