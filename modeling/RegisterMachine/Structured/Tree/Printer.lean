import RegisterMachine.Structured.Tree

/-! # Trees written as source text

The text of a tree is FAIL again, in one layout: a statement a line, four blanks a level, braces
around every body, and parentheses around every operation.

* `Expression.text`, `Statement.text`, `Tree.text`.
* Bodies are written to the depth of the row of scopes, which no tree without circles exceeds. -/

namespace RegisterMachine.Structured

/-- A type as a declaration of a variable writes it: of an array, the type of its elements. -/
def declaredType : Option ValueType → String
  | some type => type.element.text
  | none => "var"

/-- A type as the declaration of a parameter writes it. -/
def parameterType : Option ValueType → String
  | some type => type.text
  | none => "var"

namespace Expression

mutual

/-- **An expression, fully parenthesised.** -/
def text : Expression → String
  | name identifier => identifier.name
  | number value _ => toString value.toNat
  | binary op left right _ => "(" ++ left.text ++ " " ++ op.symbol ++ " " ++ right.text ++ ")"
  | element identifier index _ => identifier.name ++ "[" ++ index.text ++ "]"
  | new type _ => "new " ++ type.text
  | call identifier arguments _ _ =>
    identifier.name ++ "(" ++ ", ".intercalate (texts arguments) ++ ")"

def texts : List Expression → List String
  | [] => []
  | e :: rest => e.text :: texts rest

end

end Expression

def Target.text : Target → String
  | name identifier => identifier.name
  | element identifier index _ => identifier.name ++ "[" ++ index.text ++ "]"

/-- The parameters of a function; what is not first has a comma before it. -/
def parameterTexts (statements : List Statement) : String :=
  String.join (statements.zipIdx.map fun (s, index) =>
    match s.declared? with
    | some parameter =>
      (if index = 0 then "" else ", ") ++ parameterType parameter.type ++ " " ++ parameter.name
    | none => "")

/-- A statement on its line, its bodies as `body` writes them. -/
def Statement.text (parameters : ScopeId → List Statement) (body : ScopeId → String) :
    Statement → String
  | assign target expression initial _ =>
    (if initial then declaredType target.identifier.type ++ " " else "") ++ target.text ++ " = " ++
      expression.text ++ ";\n"
  | branch condition inner otherwise _ =>
    "if " ++ condition.text ++ " " ++ body inner ++
      (match otherwise with
        | some other => " else " ++ body other
        | none => "") ++ "\n"
  | loop condition inner _ => "while " ++ condition.text ++ " " ++ body inner ++ "\n"
  | block inner => body inner ++ "\n"
  | leave _ => "break;\n"
  | again _ => "continue;\n"
  | function identifier arguments inner returns _ =>
    "fn " ++ identifier.name ++ "(" ++ parameterTexts (parameters arguments) ++ ") " ++
      (match returns with
        | some type => "-> " ++ type.text ++ " "
        | none => "") ++ body inner ++ "\n"
  | parameter identifier => "// argument " ++ identifier.name ++ "\n"
  | give expression _ => "return " ++ expression.text ++ ";\n"
  | evaluate expression => expression.text ++ ";\n"

namespace Tree

/-- The blanks in front of a line at this level. -/
def indent (level : Nat) : String := String.ofList (List.replicate (4 * level) ' ')

/-- The statements of a scope at this level, with bodies to a depth. -/
def scopeText (t : Tree) : (depth : Nat) → (level : Nat) → ScopeId → String
  | 0, _, _ => ""
  | depth + 1, level, id =>
    String.join ((t.scope id).statements.toList.map fun s =>
      indent level ++ s.text (fun id => (t.scope id).statements.toList)
        fun body => "\x7b\n" ++ scopeText t depth (level + 1) body ++ indent level ++ "\x7d")

/-- **The text of a tree.** -/
def text (t : Tree) : String := t.scopeText t.scopes.size 0 rootScope

end Tree

end RegisterMachine.Structured
