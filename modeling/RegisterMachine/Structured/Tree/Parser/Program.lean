import RegisterMachine.Structured.Tree.Parser.Statement
import RegisterMachine.Structured.Tree.Printer

/-! # From tokens to trees

A statement is put into its scope as soon as it is read, so a name sees only the declarations before
it. A body is a block or a single statement, and always has a scope of its own.

* `Draft`: the tree so far, and whether the function that is being read has returned a value.
* `statement`, `statements`, `body`, `function`: the parts of a program, each from the draft before
  it to the draft behind it.
* `parse`: the tree of a row of tokens. Its calls are not resolved yet. -/

namespace RegisterMachine.Structured

namespace Parser

/-- The tree so far. -/
structure Draft where
  tree : Tree := {}
  /-- A `return` was read in the current function. -/
  returned : Bool := false

/-- What the surroundings of a statement allow. -/
structure Surroundings where
  inLoop : Bool := false
  inFunction : Bool := false

namespace Draft

/-- Where an expression is read. -/
def site (d : Draft) (scope : ScopeId) (stop : Span) : Site := ⟨d.tree, scope, stop⟩

/-- A statement at the end of a scope. -/
def push (d : Draft) (scope : ScopeId) (s : Statement) : Draft :=
  { d with tree := d.tree.push scope s }

/-- A new scope that shares one other. -/
def openScope (d : Draft) (shared : ScopeId) : Draft × ScopeId :=
  let (tree, id) := d.tree.addScope [shared]
  ({ d with tree }, id)

end Draft

/-- `(e)` with a comparison, behind the keyword. -/
def condition (site : Site) (missing : ErrorCode) (expected : String) (tokens : List Token) :
    Except Error (Expression × Shorter tokens) := do
  let (_, rest₁) ← expect site.stop .leftParen missing expected tokens
  let (value, rest₂) ← expression site rest₁
  let (_, rest₃) ← expect site.stop .rightParen .closingParenthesisMissing
    "expected `)` after the condition" rest₂
  if isComparison value then return (value, rest₁.trans (rest₂.trans rest₃))
  else .error ⟨.conditionMustReturnBoolean,
    s!"condition `{value.text}` is not a comparison", value.span⟩

/-- The type of a parameter. -/
def parameterType (t : Token) : Except Error (Option ValueType) :=
  match t.kind with
  | .keyword .var => .ok none
  | .keyword .int => .ok (some .int)
  | .keyword .bool => .ok (some .bool)
  | _ => .error ⟨.wrongToken, s!"expected an argument type, found `{t.raw}`", t.span⟩

/-- One parameter and those behind it, through the parenthesis that closes them. -/
def parametersFrom (stop : Span) (tree : Tree) (scope : ScopeId) (tokens : List Token) :
    Except Error (Tree × Shorter tokens) := do
  let (keyword, ⟨rest, _⟩) ← next stop "expected an argument type" tokens
  let type ← parameterType keyword
  let (name, ⟨rest, _⟩) ←
    expect stop .identifier .declarationMissingIdentifier "expected an argument name" rest
  checkFresh tree scope name
  let tree := tree.push scope (.parameter ⟨name.raw, type, some scope, name.span⟩)
  let (separator, ⟨rest, _⟩) ← next stop "expected `,` or `)`" rest
  match separator.kind with
  | .comma => do
    let (tree, ⟨rest, _⟩) ← parametersFrom stop tree scope rest
    return (tree, ⟨rest, by omega⟩)
  | .rightParen => return (tree, ⟨rest, by omega⟩)
  | _ => .error ⟨.closingParenthesisMissing,
      s!"expected `,` or `)`, found `{separator.raw}`", separator.span⟩
termination_by tokens.length

/-- The parameters of a function, through the parenthesis that closes them. -/
def parameters (stop : Span) (tree : Tree) (scope : ScopeId) (tokens : List Token) :
    Except Error (Tree × Shorter tokens) :=
  match tokens with
  | [] => parametersFrom stop tree scope []
  | t :: rest =>
    if t.kind = .rightParen then .ok (tree, .tail t rest)
    else parametersFrom stop tree scope (t :: rest)

/-- The type that a function returns, if it declares one. -/
def returnType (stop : Span) (tokens : List Token) :
    Except Error (Option ValueType × AtMost tokens) :=
  match tokens with
  | [] => .ok (none, .all [])
  | t :: rest =>
    if t.kind = .arrow then do
      let (type, rest₁) ← next stop "expected a return type after `->`" rest
      match type.kind with
      | .keyword .int => return (some .int, (rest₁.behind t).toAtMost)
      | .keyword .bool => return (some .bool, (rest₁.behind t).toAtMost)
      | _ => .error ⟨.wrongToken,
          s!"expected `int` or `bool` after `->`, found `{type.raw}`", type.span⟩
    else .ok (none, .all (t :: rest))

/-- A function of this name may be declared in a scope that declares none yet. -/
def checkFreshFunction (tree : Tree) (scope : ScopeId) (name : Token) : Except Error Unit :=
  if (tree.scope scope).statements.any (·.declaresFunction name.raw) then
    .error ⟨.duplicateDeclaration,
      s!"function `{name.raw}` is already declared in this scope", name.span⟩
  else .ok ()

mutual

/-- **One statement**, put into its scope. -/
def statement (stop : Span) (d : Draft) (scope : ScopeId) (around : Surroundings)
    (tokens : List Token) : Except Error (Draft × Shorter tokens) :=
  match tokens with
  | [] => .error (endOfCode stop "expected a statement")
  | t :: rest =>
    match t.kind with
    | .keyword .var | .keyword .int | .keyword .bool => do
      let (s, ⟨rest, _⟩) ← declaration (d.site scope stop) t rest
      return (d.push scope s, ⟨rest, by simp only [List.length_cons]; omega⟩)
    | .identifier => do
      let (s, ⟨rest, _⟩) ← assignment (d.site scope stop) t rest
      return (d.push scope s, ⟨rest, by simp only [List.length_cons]; omega⟩)
    | .keyword .ifThen => do
      let (value, ⟨rest, _⟩) ← condition (d.site scope stop) .ifMissingOpeningParenthesis
        "expected `(` after `if`" rest
      let (d, inner, ⟨rest, _⟩) ← body stop d scope around rest
      let (d, other, ⟨rest, _⟩) ← otherwise stop d scope around rest
      return (d.push scope (.branch value inner other (t.span.upTo value.span)),
        ⟨rest, by simp only [List.length_cons]; omega⟩)
    | .keyword .while => do
      let (value, ⟨rest, _⟩) ← condition (d.site scope stop) .whileMissingOpeningParenthesis
        "expected `(` after `while`" rest
      let (d, inner, ⟨rest, _⟩) ← body stop d scope { around with inLoop := true } rest
      return (d.push scope (.loop value inner (t.span.upTo value.span)),
        ⟨rest, by simp only [List.length_cons]; omega⟩)
    | .keyword .break =>
      if around.inLoop then do
        let (s, ⟨rest, _⟩) ← keywordStatement stop (.leave t.span) rest
        return (d.push scope s, ⟨rest, by simp only [List.length_cons]; omega⟩)
      else .error ⟨.breakMustBeInsideLoop, "`break` outside of a loop", t.span⟩
    | .keyword .continue =>
      if around.inLoop then do
        let (s, ⟨rest, _⟩) ← keywordStatement stop (.again t.span) rest
        return (d.push scope s, ⟨rest, by simp only [List.length_cons]; omega⟩)
      else .error ⟨.continueMustBeInsideLoop, "`continue` outside of a loop", t.span⟩
    | .keyword .fn => do
      let (d, s, ⟨rest, _⟩) ← function stop d scope t rest
      return (d.push scope s, ⟨rest, by simp only [List.length_cons]; omega⟩)
    | .keyword .return =>
      if around.inFunction then do
        let (s, ⟨rest, _⟩) ← returned (d.site scope stop) t rest
        return ({ d.push scope s with returned := true },
          ⟨rest, by simp only [List.length_cons]; omega⟩)
      else .error ⟨.returnMustBeInsideFunction, "`return` outside of a function", t.span⟩
    | .leftBrace => do
      let (d, inner) := d.openScope scope
      let (d, ⟨rest, _⟩) ← statements stop d inner around true rest
      return (d.push scope (.block inner), ⟨rest, by simp only [List.length_cons]; omega⟩)
    | _ => .error ⟨.wrongStatementStart,
        s!"a statement cannot start with `{t.raw}`", t.span⟩
termination_by (tokens.length, 0)

/-- **The statements of a scope**, through the brace that closes it or to the end of the code. -/
def statements (stop : Span) (d : Draft) (scope : ScopeId) (around : Surroundings)
    (braced : Bool) (tokens : List Token) : Except Error (Draft × AtMost tokens) :=
  match tokens with
  | [] =>
    if braced then .error (endOfCode stop "expected `\x7d` to close the block")
    else .ok (d, .all [])
  | t :: rest =>
    if t.kind = .rightBrace then
      if braced then .ok (d, (Shorter.tail t rest).toAtMost)
      else .error ⟨.wrongBlockEnd, "unmatched `\x7d`", t.span⟩
    else do
      let (d, ⟨rest, _⟩) ← statement stop d scope around (t :: rest)
      let (d, ⟨rest, _⟩) ← statements stop d scope around braced rest
      return (d, ⟨rest, by omega⟩)
termination_by (tokens.length, 1)

/-- **A body**, in a new scope. -/
def body (stop : Span) (d : Draft) (scope : ScopeId) (around : Surroundings)
    (tokens : List Token) : Except Error (Draft × ScopeId × AtMost tokens) :=
  match tokens with
  | [] => .error (endOfCode stop "expected a statement")
  | t :: rest =>
    let (d, inner) := d.openScope scope
    if t.kind = .leftBrace then do
      let (d, ⟨rest, _⟩) ← statements stop d inner around true rest
      return (d, inner, ⟨rest, by simp only [List.length_cons]; omega⟩)
    else do
      let (d, ⟨rest, _⟩) ← statement stop d inner around (t :: rest)
      return (d, inner, ⟨rest, Nat.le_of_lt ‹_›⟩)
termination_by (tokens.length, 1)

/-- The body behind `else`, if there is one. -/
def otherwise (stop : Span) (d : Draft) (scope : ScopeId) (around : Surroundings)
    (tokens : List Token) : Except Error (Draft × Option ScopeId × AtMost tokens) :=
  match tokens with
  | [] => .ok (d, none, .all [])
  | t :: rest =>
    if t.kind = .keyword .orElse then do
      let (d, inner, ⟨rest, _⟩) ← body stop d scope around rest
      return (d, some inner, ⟨rest, by simp only [List.length_cons]; omega⟩)
    else .ok (d, none, .all (t :: rest))
termination_by (tokens.length, 0)

/-- **A function**, behind its keyword. -/
def function (stop : Span) (d : Draft) (scope : ScopeId) (keyword : Token)
    (tokens : List Token) : Except Error (Draft × Statement × Shorter tokens) := do
  let (name, ⟨rest, _⟩) ← expect stop .identifier .functionNeedingIdentifier
    "expected a function name after `fn`" tokens
  checkFreshFunction d.tree scope name
  let (_, ⟨rest, _⟩) ← expect stop .leftParen .wrongToken
    "expected `(` after the function name" rest
  let (tree, arguments) := d.tree.addScope [scope]
  let (tree, ⟨rest, _⟩) ← parameters stop tree arguments rest
  let (returns, ⟨rest, _⟩) ← returnType stop rest
  let (_, ⟨rest, _⟩) ← expect stop .leftBrace .wrongToken
    "expected `\x7b` to open the function body" rest
  let (tree, inner) := tree.addScope [arguments]
  let (inside, ⟨rest, _⟩) ←
    statements stop ⟨tree, false⟩ inner { inFunction := true } true rest
  if inside.returned ∧ returns = none then
    .error ⟨.functionWithReturnNeedingReturnType,
      s!"function `{name.raw}` returns a value but declares no return type", name.span⟩
  else
    return ({ d with tree := inside.tree },
      .function ⟨name.raw, returns, some scope, name.span⟩ arguments inner returns
        (keyword.span.upTo name.span),
      ⟨rest, by omega⟩)
termination_by (tokens.length, 0)

end

/-- **The tree of a row of tokens.** -/
def parse (tokens : List Token) : Except Error Tree :=
  (statements (endOfTokens tokens) {} rootScope {} false tokens).map (·.1.tree)

end Parser

end RegisterMachine.Structured
