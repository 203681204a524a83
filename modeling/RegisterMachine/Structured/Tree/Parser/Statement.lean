import RegisterMachine.Machine.Bank
import RegisterMachine.Structured.Tree.Parser.Expression

/-! # From tokens to statements without bodies

Declarations, assignments, calls, jumps and `return`. They read expressions but open no scope, so
they leave the tree as it is and answer with the statement.

* `declaration`: a type, a fresh name and its initial value.
* `assignment`: everything that starts with a name; `x += e` and `x++` become `x = x + e`. -/

namespace RegisterMachine.Structured

namespace Parser

/-- The size of an array, from the value of a token. -/
def arraySize (t : Token) : Except Error Nat :=
  match t.number? with
  | some size =>
    if Machine.maxRegisters < size.toNat then
      .error ⟨.numberOutOfRange,
        s!"array size {size.toNat} exceeds the {Machine.maxRegisters} registers of a machine",
        t.span⟩
    else if size.toNat = 0 then
      .error ⟨.invalidExpression, "array size must be a positive number", t.span⟩
    else .ok size.toNat
  | none => .error ⟨.invalidExpression, "array size must be a positive number", t.span⟩

/-- `new <type>[<size>]`, behind the keyword. -/
def initialization (site : Site) (keyword : Token) (tokens : List Token) :
    Except Error (ValueType × Span × Shorter tokens) := do
  let (type, rest₁) ← next site.stop "expected a type after `new`" tokens
  match type.kind with
  | .keyword .int | .keyword .bool => do
    let scalar := if type.kind = .keyword .int then ValueType.int else ValueType.bool
    let (_, rest₂) ←
      expect site.stop .leftBracket .wrongToken "expected `[` and an array size" rest₁
    let (size, rest₃) ← next site.stop "expected an array size" rest₂
    let count ← arraySize size
    let (close, rest₄) ←
      expect site.stop .rightBracket .arrayAccessorMissingClosingBrace "expected `]`" rest₃
    return (.array scalar count, keyword.span.upTo close.span,
      rest₁.trans (rest₂.trans (rest₃.trans rest₄)))
  | _ => .error ⟨.typeNeededForInitialization,
      s!"expected `int` or `bool` after `new`, found `{type.raw}`", type.span⟩

/-- A declared type agrees with an array whose elements have this type. -/
def checkElement (declared : Option ValueType) (type : ValueType) (span : Span) :
    Except Error Unit :=
  match declared with
  | some scalar =>
    if scalar = type.element then .ok ()
    else .error
      ⟨.typeMismatch, s!"cannot initialize `{scalar.text}` variable with `{type.text}`", span⟩
  | none => .ok ()

/-- The initial value of a declaration, with the type of the name. -/
def initialValue (site : Site) (declared : Option ValueType) (tokens : List Token) :
    Except Error (Option ValueType × Expression × Shorter tokens) :=
  match tokens with
  | [] => .error (endOfCode site.stop "expected an expression")
  | t :: rest =>
    if t.kind = .keyword .new then do
      let (type, span, rest₁) ← initialization site t rest
      checkElement declared type span
      return (some type, .new type span, rest₁.behind t)
    else do
      let (value, rest₁) ← expression site (t :: rest)
      return (declared, value, rest₁)

/-- **A declaration**, behind its type. -/
def declaration (site : Site) (type : Token) (tokens : List Token) :
    Except Error (Statement × Shorter tokens) := do
  let declared :=
    match type.kind with
    | .keyword k => ValueType.ofKeyword? k
    | _ => none
  let (name, rest₁) ← expect site.stop .identifier .declarationMissingIdentifier
    "expected a name after the type" tokens
  checkFresh site.tree site.scope name
  let (_, rest₂) ← expect site.stop .assign .declarationNeedingInitialization
    "declarations need an initial value" rest₁
  let (valueType, value, rest₃) ← initialValue site declared rest₂
  let (close, rest₄) ← expectSemicolon site.stop rest₃
  return (.assign (.name ⟨name.raw, valueType, some site.scope, name.span⟩) value true
    (type.span.upTo close.span), rest₁.trans (rest₂.trans (rest₃.trans rest₄)))

/-- `x op= e` as the assignment `x = x op e`. -/
def combined (target : Identifier) (op : Operator) (right : Expression) (span : Span) :
    Statement :=
  .assign (.name target)
    (.binary op (.name target) right (target.span.upTo right.span)) false span

/-- **A statement that starts with a name**, behind the name. -/
def assignment (site : Site) (name : Token) (tokens : List Token) :
    Except Error (Statement × Shorter tokens) :=
  match tokens with
  | [] => .error (endOfCode site.stop "expected an assignment or call")
  | t :: rest =>
    match t.kind with
    | .leftParen => do
      let (value, rest₁) ← call site name (t :: rest)
      let (_, rest₂) ← expectSemicolon site.stop rest₁
      return (.evaluate value, rest₁.trans rest₂)
    | .leftBracket => do
      let (identifier, index, span, rest₁) ← element site name (t :: rest)
      let (_, rest₂) ← expect site.stop .assign .assignmentMissingOperator
        "expected `=` after the array element" rest₁
      let (value, rest₃) ← expression site rest₂
      let (close, rest₄) ← expectSemicolon site.stop rest₃
      return (.assign (.element identifier index span) value false
        (name.span.upTo close.span), rest₁.trans (rest₂.trans (rest₃.trans rest₄)))
    | .assign => do
      let target ← site.scalar name
      let (value, rest₁) ← expression site rest
      let (close, rest₂) ← expectSemicolon site.stop rest₁
      return (.assign (.name target) value false (name.span.upTo close.span),
        (rest₁.trans rest₂).behind t)
    | .selfAssignment op => do
      let target ← site.scalar name
      let (right, rest₁) ← expression site rest
      let (close, rest₂) ← expectSemicolon site.stop rest₁
      return (combined target op right (name.span.upTo close.span), (rest₁.trans rest₂).behind t)
    | .incremental op => do
      let target ← site.scalar name
      let (close, rest₁) ← expectSemicolon site.stop rest
      return (combined target op (.number 1 t.span) (name.span.upTo close.span), rest₁.behind t)
    | _ => .error ⟨.assignmentMissingOperator,
        s!"expected an assignment operator, found `{t.raw}`", t.span⟩

/-- A statement of a keyword alone. -/
def keywordStatement (stop : Span) (statement : Statement) (tokens : List Token) :
    Except Error (Statement × Shorter tokens) := do
  let (_, rest) ← expectSemicolon stop tokens
  return (statement, rest)

/-- `return e;`, behind the keyword. -/
def returned (site : Site) (keyword : Token) (tokens : List Token) :
    Except Error (Statement × Shorter tokens) := do
  let (value, rest₁) ← expression site tokens
  let (_, rest₂) ← expectSemicolon site.stop rest₁
  return (.give value (keyword.span.upTo value.span), rest₁.trans rest₂)

/-- An expression that compares. -/
def isComparison : Expression → Bool
  | .binary op _ _ _ => op.isComparison
  | _ => false

end Parser

end RegisterMachine.Structured
