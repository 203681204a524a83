import RegisterMachine.Toolchain

/-! # What a session is asked for

The options of a session, as the command line gives them. -/

namespace RegisterMachine.CommandLine

/-- What a session writes about a source. -/
inductive Emit
  | tokens
  /-- The tree of a FAIL source, or an assembly program with its addresses. -/
  | tree
  /-- The assembly. -/
  | assembly
  | nothing
deriving DecidableEq, Repr

structure Options where
  /-- The file of the source; standard input if there is none. -/
  input : Option String := none
  /-- Where the text goes; standard output if there is none. -/
  output : Option String := none
  dialect : Option Dialect := none
  emit : Option Emit := none
  run : Bool := false
  settings : Machine.Settings := {}
  /-- Milliseconds until the run is cancelled. -/
  timeout : Option Nat := none
  trace : Bool := false
  verbosity : Nat := 0

namespace Options

/-- The language of the source: as asked for, else as the name of the file says. -/
def sourceDialect (o : Options) : Dialect :=
  o.dialect.getD ((o.input.map Dialect.ofPath).getD .assembly)

/-- What is written: as asked for, else the assembly unless the program is run. -/
def wanted (o : Options) : Emit := o.emit.getD (if o.run then .nothing else .assembly)

end Options

/-- What the arguments ask for. -/
inductive Request
  | session (options : Options)
  | help
  | version

end RegisterMachine.CommandLine
