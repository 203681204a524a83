/-! # Keywords and operators

FAIL has eleven keywords and ten binary operators in three classes of precedence. `+=` and its kin
and `++`, `--` stand for an assignment with a binary operator. -/

namespace RegisterMachine.Structured

inductive Keyword
  | var | int | bool | ifThen | orElse | while | break | continue | new | fn | return
deriving DecidableEq, Repr, Inhabited

namespace Keyword

def all : List Keyword :=
  [var, int, bool, ifThen, orElse, .while, .break, .continue, new, fn, .return]

def text : Keyword → String
  | var => "var"
  | int => "int"
  | bool => "bool"
  | ifThen => "if"
  | orElse => "else"
  | .while => "while"
  | .break => "break"
  | .continue => "continue"
  | new => "new"
  | fn => "fn"
  | .return => "return"

/-- The name of the keyword's token. -/
def name : Keyword → String
  | var => "Var"
  | int => "Int"
  | bool => "Bool"
  | ifThen => "If"
  | orElse => "Else"
  | .while => "While"
  | .break => "Break"
  | .continue => "Continue"
  | new => "New"
  | fn => "Fn"
  | .return => "Return"

def ofText? (text : String) : Option Keyword := all.find? (·.text == text)

/-- The keywords that name a type. -/
def isType : Keyword → Bool
  | int | bool => true
  | _ => false

theorem ofText?_text (k : Keyword) : ofText? k.text = some k := by
  cases k <;> decide

end Keyword

/-- The classes of operators, from the tightest to the loosest. -/
inductive Precedence
  | term
  /-- `*` `/` -/
  | dot
  /-- `+` `-` -/
  | stroke
  /-- The comparisons. -/
  | test
deriving DecidableEq, Repr, Inhabited

namespace Precedence

/-- The next tighter class. -/
def above : Precedence → Precedence
  | test => stroke
  | stroke => dot
  | dot | term => term

/-- The number of tighter classes. -/
@[simp] def rank : Precedence → Nat
  | term => 0
  | dot => 1
  | stroke => 2
  | test => 3

def name : Precedence → String
  | term => "Term"
  | dot => "Dot"
  | stroke => "Stroke"
  | test => "Test"

theorem rank_above {p : Precedence} (h : p ≠ term) : p.above.rank < p.rank := by
  cases p <;> first | exact absurd rfl h | decide

end Precedence

inductive Operator
  | add | subtract | multiply | divide
  | equal | notEqual | greaterThan | lessThan | greaterThanOrEqual | lessThanOrEqual
deriving DecidableEq, Repr, Inhabited

namespace Operator

def all : List Operator :=
  [add, subtract, multiply, divide, equal, notEqual, greaterThan, lessThan, greaterThanOrEqual,
    lessThanOrEqual]

def symbol : Operator → String
  | add => "+"
  | subtract => "-"
  | multiply => "*"
  | divide => "/"
  | equal => "=="
  | notEqual => "!="
  | greaterThan => ">"
  | lessThan => "<"
  | greaterThanOrEqual => ">="
  | lessThanOrEqual => "<="

def name : Operator → String
  | add => "Add"
  | subtract => "Subtract"
  | multiply => "Multiply"
  | divide => "Divide"
  | equal => "Equal"
  | notEqual => "NotEqual"
  | greaterThan => "GreaterThan"
  | lessThan => "LessThan"
  | greaterThanOrEqual => "GreaterThanOrEqual"
  | lessThanOrEqual => "LessThanOrEqual"

def ofSymbol? (symbol : String) : Option Operator := all.find? (·.symbol == symbol)

def precedence : Operator → Precedence
  | multiply | divide => .dot
  | add | subtract => .stroke
  | _ => .test

def isComparison (op : Operator) : Bool := op.precedence == .test

/-- The four operators that can stand before `=`. -/
def ofSelfAssignment? : String → Option Operator
  | "+=" => some add
  | "-=" => some subtract
  | "*=" => some multiply
  | "/=" => some divide
  | _ => none

/-- The two operators of a step by one. -/
def ofIncrement? : String → Option Operator
  | "++" => some add
  | "--" => some subtract
  | _ => none

theorem ofSymbol?_symbol (op : Operator) : ofSymbol? op.symbol = some op := by
  cases op <;> decide

end Operator

end RegisterMachine.Structured
