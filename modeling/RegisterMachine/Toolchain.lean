import RegisterMachine.Assembly.Token.Lexer
import RegisterMachine.Assembly.Program.Parser
import RegisterMachine.Assembly.Program.Labels
import RegisterMachine.Assembly.Program.Bounds
import RegisterMachine.Machine.Settings
import RegisterMachine.Path
import RegisterMachine.Structured.Token.Lexer
import RegisterMachine.Structured.Tree.Parser.Program
import RegisterMachine.Structured.Tree.Calls
import RegisterMachine.Structured.Tree.Inference
import RegisterMachine.Structured.Emission

/-! # The way from a source to a program

* `assemble`: an assembly source for a machine with so many general registers.
* `analyze`: the tree of a FAIL source, its calls bound and its types filled in.
* `compile`: the tree and its assembly.
* `build`: the same, and the program that the assembly spells. -/

namespace RegisterMachine

/-- Why a source gives no program. -/
inductive Failure
  | assembly (error : Assembly.Error)
  | structured (error : Structured.Error)
  | settings (error : Machine.SettingsError)
  /-- A scope contains itself. -/
  | endless

namespace Failure

def message : Failure → String
  | assembly error => "assembly error: " ++ error.message
  | structured error => error.message
  | settings error => error.message
  | endless => "a scope contains itself"

/-- The message of the error inside, where there is one. -/
def cause? : Failure → Option String
  | assembly error => some error.message
  | structured error => some error.message
  | settings _ | endless => none

def ofRefusal : Structured.Refusal → Failure
  | .error error => structured error
  | .endless => endless

end Failure

/-- The two languages of sources. -/
inductive Dialect
  | assembly | structured
deriving DecidableEq, Repr

/-- **The language of a file**: FAIL if the name ends in `.fail`, in either case. -/
def Dialect.ofPath (path : String) : Dialect :=
  match (Path.fileName? path.toList).bind Path.extension? with
  | some extension =>
    if extension.map Char.toLower = ['f', 'a', 'i', 'l'] then .structured else .assembly
  | none => .assembly

/-- **Assemble a source** for a machine with this number of general registers. -/
def assemble (source : String) (registers : Nat) : Except Failure Assembly.Program := do
  (Machine.checkCount registers).mapError Failure.settings
  let tokens ← (Assembly.tokenize source).mapError Failure.assembly
  let program ← (Assembly.parse tokens).mapError Failure.assembly
  let program ← program.resolve.mapError Failure.assembly
  (program.checkBounds (registers + 1)).mapError Failure.assembly
  return program

/-- **The tree of a FAIL source.** -/
def analyze (source : String) : Except Structured.Error Structured.Tree := do
  let tokens ← Structured.tokenize source
  let tree ← Structured.Parser.parse tokens
  let tree ← tree.bindCalls
  return tree.inferTypes

structure Compilation where
  tree : Structured.Tree
  emission : Structured.Emission

/-- **Compile a FAIL source** to assembly. -/
def compile (source : String) : Except Failure Compilation := do
  let tree ← (analyze source).mapError Failure.structured
  let emission ← tree.emit.mapError Failure.ofRefusal
  return ⟨tree, emission⟩

/-- **Compile a FAIL source and assemble the result** for the registers that it needs. -/
def build (source : String) : Except Failure (Compilation × Assembly.Program) := do
  let compilation ← compile source
  let program ← assemble compilation.emission.assembly compilation.emission.registerCount
  return (compilation, program)

end RegisterMachine
