import RegisterMachine.Remainder
import RegisterMachine.Structured.Error
import RegisterMachine.Structured.Token
import RegisterMachine.Structured.Tree.Visibility

/-! # Reading single tokens and names

What the parser of expressions and the parser of statements have in common: taking a token of an
expected kind, and looking up a name at the site where it is used. A reader answers with the tokens
that are left, and these are fewer. -/

namespace RegisterMachine.Structured

/-- Where an expression is read: the tree so far, the scope, and the place where the code ends. -/
structure Site where
  tree : Tree
  scope : ScopeId
  stop : Span

/-- The place just behind the last token. -/
def endOfTokens (tokens : List Token) : Span :=
  match tokens.getLast? with
  | some t => t.span.stop
  | none => ⟨1, 1, 0⟩

def endOfCode (stop : Span) (expected : String) : Error :=
  ⟨.unexpectedEndOfCode, s!"{expected}, found end of code", stop⟩

/-- **The next token**, whatever it is. -/
def next (stop : Span) (expected : String) :
    (tokens : List Token) → Except Error (Token × Shorter tokens)
  | [] => .error (endOfCode stop expected)
  | t :: rest => .ok (t, .tail t rest)

/-- **The next token, if it is of this kind.** -/
def expect (stop : Span) (kind : TokenKind) (code : ErrorCode) (expected : String) :
    (tokens : List Token) → Except Error (Token × Shorter tokens)
  | [] => .error (endOfCode stop expected)
  | t :: rest =>
    if t.kind = kind then .ok (t, .tail t rest)
    else .error ⟨code, s!"{expected}, found `{t.raw}`", t.span⟩

/-- The semicolon behind a statement. -/
def expectSemicolon (stop : Span) (tokens : List Token) : Except Error (Token × Shorter tokens) :=
  expect stop .semicolon .wrongStatementEnd "expected `;` at the end of the statement" tokens

namespace Site

/-- **The use of a name**, bound to its declaration. -/
def use (site : Site) (t : Token) : Except Error Identifier :=
  match site.tree.declaration? site.scope t.raw with
  | some (binding, declaration) => .ok ⟨t.raw, declaration.type, some binding, t.span⟩
  | none => .error ⟨.unknownIdentifier, s!"unknown identifier `{t.raw}`", t.span⟩

/-- The identifier is known to name an array. -/
def namesArray (identifier : Identifier) : Bool := identifier.type.any ValueType.isArray

/-- The use of a name as a scalar. -/
def scalar (site : Site) (t : Token) : Except Error Identifier :=
  match site.use t with
  | .error e => .error e
  | .ok identifier =>
    if namesArray identifier then
      .error ⟨.typeMismatch, s!"array `{identifier.name}` must be indexed", identifier.span⟩
    else .ok identifier

/-- The use of a name as an array. -/
def array (site : Site) (t : Token) : Except Error Identifier :=
  match site.use t with
  | .error e => .error e
  | .ok identifier =>
    if namesArray identifier then .ok identifier
    else .error ⟨.typeMismatch, s!"`{identifier.name}` is not an array", identifier.span⟩

end Site

/-- A name may be declared in a scope that does not declare it yet. -/
def checkFresh (t : Tree) (scope : ScopeId) (name : Token) : Except Error Unit :=
  if (t.scope scope).statements.any fun s => s.declared?.any (·.name == name.raw) then
    .error ⟨.duplicateDeclaration, s!"`{name.raw}` is already declared in this scope", name.span⟩
  else .ok ()

end RegisterMachine.Structured
