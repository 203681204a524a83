import RegisterMachine.CommandLine.Options

/-! # The switches of the command line

One switch for every option, with its spellings and what the help says about it. -/

namespace RegisterMachine.CommandLine

inductive Switch
  | input | output | lang | emit | run | registers | speed | realTime | timeout | trace | verbose
  | help | version
deriving DecidableEq, Repr

namespace Switch

/-- All switches in the order of the help. -/
def all : List Switch :=
  [input, output, lang, emit, run, registers, speed, realTime, timeout, trace, verbose, help,
    version]

theorem mem_all (s : Switch) : s ∈ all := by cases s <;> decide

/-- The spelling behind two dashes. -/
def long : Switch → String
  | input => "input"
  | output => "output"
  | lang => "lang"
  | emit => "emit"
  | run => "run"
  | registers => "registers"
  | speed => "speed"
  | realTime => "real-time"
  | timeout => "timeout-ms"
  | trace => "trace"
  | verbose => "verbose"
  | help => "help"
  | version => "version"

/-- The spelling behind one dash. -/
def short? : Switch → Option Char
  | input => some 'i'
  | output => some 'o'
  | verbose => some 'v'
  | help => some 'h'
  | version => some 'V'
  | _ => none

/-- The name of the value in the help, if the switch takes one. -/
def value? : Switch → Option String
  | input => some "INPUT"
  | output => some "OUTPUT"
  | lang => some "LANG"
  | emit => some "EMIT"
  | registers => some "REGISTERS"
  | speed => some "HZ"
  | timeout => some "MS"
  | _ => none

/-- May be given more than once. -/
def repeatable (s : Switch) : Bool := s == verbose

def summary : Switch → String
  | input => "Source file; standard input when absent"
  | output => "Where to write the emitted text; standard output when absent"
  | lang => "Source language (defaults from the file extension)"
  | emit => "What to write: tokens, ast, ram or none (ram unless --run is given)"
  | run => "Run the program on the interpreter"
  | registers => "Number of general registers"
  | speed => "Instructions per second when clocked"
  | realTime => "Run without waiting for clock ticks"
  | timeout => "Cancel the run after this many milliseconds"
  | trace => "Print every executed instruction and register change"
  | verbose => "Raise the log level (repeatable)"
  | help => "Print help"
  | version => "Print version"

/-- The switch of a long spelling. -/
def ofLong? (name : String) : Option Switch := all.find? (·.long == name)

/-- The switch of a short spelling. -/
def ofShort? (name : Char) : Option Switch := all.find? (·.short? == some name)

end Switch

/-! ## Values by name -/

/-- The languages under their names. -/
def dialectNames : List (String × Dialect) := [("ram", .assembly), ("fail", .structured)]

/-- The kinds of output under their names. -/
def emitNames : List (String × Emit) :=
  [("tokens", .tokens), ("ast", .tree), ("ram", .assembly), ("none", .nothing)]

end RegisterMachine.CommandLine
