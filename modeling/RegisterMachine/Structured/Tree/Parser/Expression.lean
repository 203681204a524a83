import RegisterMachine.Structured.Tree.Parser.Names

/-! # From tokens to expressions

An expression of one precedence is a row of expressions of the next tighter class with
operators of the class between them, grouped from the left. The tightest class holds the terms:
numbers, names, elements of arrays, calls and parentheses.

* `level`: an expression of a class.
* `operations`: the operators and operands that follow the first operand.
* `expression`: an expression of the loosest class. -/

namespace RegisterMachine.Structured

namespace Parser

mutual

/-- **An expression of one class of precedence.** -/
def level (site : Site) (tier : Precedence) (tokens : List Token) :
    Except Error (Expression × Shorter tokens) :=
  if _h : tier = .term then term site tokens
  else do
    let (left, ⟨rest, _⟩) ← level site tier.above tokens
    let (result, ⟨rest, _⟩) ← operations site tier left rest
    return (result, ⟨rest, by omega⟩)
termination_by (tokens.length, tier.rank + 1)
decreasing_by
  all_goals simp_wf
  · simp [Prod.lex_def]
  · exact Prod.Lex.right _ (Nat.succ_lt_succ (Precedence.rank_above _h))
  · exact Prod.Lex.left _ _ (by omega)

/-- The operators of a class, with their right operands, behind a left operand. -/
def operations (site : Site) (tier : Precedence) (left : Expression) (tokens : List Token) :
    Except Error (Expression × AtMost tokens) :=
  match tokens with
  | ⟨.binary op, _, _, _⟩ :: rest =>
    if op.precedence = tier then do
      let (right, ⟨rest, _⟩) ← level site tier.above rest
      let (result, ⟨rest, _⟩) ←
        operations site tier (.binary op left right (left.span.upTo right.span)) rest
      return (result, ⟨rest, by simp only [List.length_cons]; omega⟩)
    else .ok (left, .all _)
  | _ => .ok (left, .all _)
termination_by (tokens.length, 0)

/-- A term. -/
def term (site : Site) (tokens : List Token) : Except Error (Expression × Shorter tokens) :=
  match tokens with
  | [] => .error (endOfCode site.stop "expected an expression")
  | t :: rest =>
    match t.kind with
    | .number => .ok (.number (t.number?.getD 0) t.span, .tail t rest)
    | .identifier =>
      match rest.head?.map Token.kind with
      | some .leftParen => do
        let (result, ⟨rest, _⟩) ← call site t rest
        return (result, ⟨rest, by simp only [List.length_cons]; omega⟩)
      | some .leftBracket => do
        let (identifier, index, span, ⟨rest, _⟩) ← element site t rest
        return (.element identifier index span, ⟨rest, by simp only [List.length_cons]; omega⟩)
      | _ => do
        let identifier ← site.scalar t
        return (.name identifier, .tail t rest)
    | .leftParen => do
      let (inner, ⟨rest, _⟩) ← level site .test rest
      let (_, ⟨rest, _⟩) ←
        expect site.stop .rightParen .closingParenthesisMissing "expected `)`" rest
      return (inner, ⟨rest, by simp only [List.length_cons]; omega⟩)
    | .keyword .new =>
      .error ⟨.invalidExpression,
        "`new` is only allowed as the initial value of a declaration", t.span⟩
    | _ => .error ⟨.invalidExpression, s!"expected an expression, found `{t.raw}`", t.span⟩
termination_by (tokens.length, 0)

/-- An element of an array, behind its name: the bracketed index. -/
def element (site : Site) (name : Token) (tokens : List Token) :
    Except Error (Identifier × Expression × Span × Shorter tokens) := do
  let identifier ← site.array name
  let (_, ⟨rest, _⟩) ← expect site.stop .leftBracket .wrongToken "expected `[`" tokens
  let (index, ⟨rest, _⟩) ← level site .test rest
  let (close, ⟨rest, _⟩) ← expect site.stop .rightBracket .arrayAccessorMissingClosingBrace
    "expected `]` after the index" rest
  return (identifier, index, identifier.span.upTo close.span, ⟨rest, by omega⟩)
termination_by (tokens.length, 0)

/-- A call, behind its name: the arguments in parentheses. -/
def call (site : Site) (name : Token) (tokens : List Token) :
    Except Error (Expression × Shorter tokens) := do
  let (_, ⟨rest, _⟩) ← expect site.stop .leftParen .wrongToken "expected `(`" tokens
  let (arguments, close, ⟨rest, _⟩) ← arguments site rest
  return (.call { name := name.raw, span := name.span } arguments none
    (name.span.upTo close.span), ⟨rest, by omega⟩)
termination_by (tokens.length, 0)

/-- The arguments of a call up to the parenthesis that closes them. -/
def arguments (site : Site) (tokens : List Token) :
    Except Error (List Expression × Token × Shorter tokens) :=
  match tokens with
  | [] => argumentsFrom site []
  | t :: rest =>
    if t.kind = .rightParen then .ok ([], t, .tail t rest) else argumentsFrom site (t :: rest)
termination_by (tokens.length, 6)

/-- One argument and those behind it. -/
def argumentsFrom (site : Site) (tokens : List Token) :
    Except Error (List Expression × Token × Shorter tokens) := do
  let (first, ⟨rest, _⟩) ← level site .test tokens
  let (separator, ⟨rest, _⟩) ← next site.stop "expected `,` or `)`" rest
  match separator.kind with
  | .comma => do
    let (others, close, ⟨rest, _⟩) ← argumentsFrom site rest
    return (first :: others, close, ⟨rest, by omega⟩)
  | .rightParen => return ([first], separator, ⟨rest, by omega⟩)
  | _ => .error ⟨.closingParenthesisMissing,
      s!"expected `,` or `)` in the call, found `{separator.raw}`", separator.span⟩
termination_by (tokens.length, 5)

end

/-- **An expression.** -/
def expression (site : Site) (tokens : List Token) :
    Except Error (Expression × Shorter tokens) :=
  level site .test tokens

end Parser

end RegisterMachine.Structured
