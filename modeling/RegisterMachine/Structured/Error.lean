import RegisterMachine.Span

/-! # What can be wrong with a FAIL source

An error has a code, which is numbered and belongs to a category, a message of its own and a
place. -/

namespace RegisterMachine.Structured

inductive ErrorCategory
  | grammar | meaning | typing
deriving DecidableEq, Repr

def ErrorCategory.text : ErrorCategory → String
  | grammar => "Syntax Error"
  | meaning => "Semantic Error"
  | typing => "Type Error"

inductive ErrorCode
  | unexpectedCharacter
  | unexpectedEndOfCode
  | wrongStatementStart
  | wrongStatementEnd
  | wrongBlockEnd
  | wrongToken
  | declarationMissingIdentifier
  | declarationNeedingInitialization
  | assignmentMissingOperator
  | arrayAccessorMissingClosingBrace
  | closingParenthesisMissing
  | typeNeededForInitialization
  | invalidExpression
  | ifMissingOpeningParenthesis
  | whileMissingOpeningParenthesis
  | conditionMustReturnBoolean
  | breakMustBeInsideLoop
  | continueMustBeInsideLoop
  | functionNeedingIdentifier
  | functionWithReturnNeedingReturnType
  | returnMustBeInsideFunction
  | functionNotFound
  | functionArgumentMismatch
  | unknownIdentifier
  | duplicateDeclaration
  | typeMismatch
  | numberOutOfRange
  | recursiveCall
deriving DecidableEq, Repr, Inhabited

namespace ErrorCode

/-- The codes are numbered in order. -/
def number (code : ErrorCode) : Nat := 1001 + code.ctorIdx

def category : ErrorCode → ErrorCategory
  | declarationMissingIdentifier | declarationNeedingInitialization | typeNeededForInitialization
  | functionNeedingIdentifier | functionWithReturnNeedingReturnType | functionNotFound
  | functionArgumentMismatch | unknownIdentifier | duplicateDeclaration | recursiveCall => .meaning
  | conditionMustReturnBoolean | typeMismatch => .typing
  | _ => .grammar

end ErrorCode

structure Error where
  code : ErrorCode
  detail : String
  span : Span
deriving DecidableEq, Repr

/-- **The message**, with category, number and place. -/
def Error.message (e : Error) : String :=
  s!"{e.code.category.text} (E{e.code.number}): {e.detail} at {e.span.text}"

end RegisterMachine.Structured
