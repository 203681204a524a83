import RegisterMachine.Structured.Operator

/-! # Types of values

A scalar fills one register, an array as many as it has elements. Types say how many registers a
declaration needs; `int` and `bool` are not told apart when values are computed. -/

namespace RegisterMachine.Structured

inductive ValueType
  | int
  | bool
  | array (element : ValueType) (size : Nat)
deriving DecidableEq, Repr, Inhabited

namespace ValueType

/-- The scalar type that a keyword names. -/
def ofKeyword? : Keyword → Option ValueType
  | .int => some int
  | .bool => some bool
  | _ => none

def isArray : ValueType → Bool
  | array _ _ => true
  | _ => false

/-- The number of registers of a value. -/
def width : ValueType → Nat
  | array _ size => size
  | _ => 1

/-- The type of an array's elements; a scalar is its own. -/
def element : ValueType → ValueType
  | array element _ => element
  | scalar => scalar

/-- The type of an operation's result. -/
def ofOperator (op : Operator) : ValueType := if op.isComparison then bool else int

def text : ValueType → String
  | int => "int"
  | bool => "bool"
  | array element size => s!"{element.text}[{size}]"

end ValueType

end RegisterMachine.Structured
