import RegisterMachine.Assembly.Program.Listing
import RegisterMachine.CommandLine.Arguments
import RegisterMachine.CommandLine.FileTree
import RegisterMachine.CommandLine.Help
import RegisterMachine.CommandLine.Report
import RegisterMachine.Machine.Interpreter
import RegisterMachine.Text.Quoted

/-! # A session

A session reads a source, makes a program of it, writes what was asked for and runs the program. It
needs a `Host` for what lies outside: files, standard streams and time.

* `prepare`: the text to be written and the program to be run.
* `conclude`: the run and what is said about it. It begins at instant zero.
* `serve`: a whole session, with its exit status. -/

namespace RegisterMachine.CommandLine

open RegisterMachine.Machine

/-- What a session needs from outside. -/
structure Host (m : Type → Type) where
  readFile : String → m (Except FileFault String)
  readInput : m (Except FileFault String)
  makeDirectory : List Char → m (Except FileFault Unit)
  isDirectory : List Char → m Bool
  writeFile : String → String → m (Except FileFault Unit)
  /-- To standard output. -/
  print : String → m Unit
  /-- To standard error. -/
  complain : String → m Unit
  /-- So many nanoseconds pass. -/
  pass : Nat → m Unit

/-! ## Preparing -/

/-- A program to be run, with what is written before. -/
structure Prepared where
  text : Option String
  program : Assembly.Program
  registers : Nat
  symbols : List Structured.Symbol

/-- Texts, one a line. -/
def lines (texts : List String) : String := String.join (texts.map (· ++ "\n"))

def prepareAssembly (emit : Emit) (registers : Nat) (source : String) :
    Except Report Prepared := do
  let headline := "failed to assemble RAM source"
  let program ← (assemble source registers).mapError (Report.ofFailure headline)
  let text ←
    match emit with
    | .tokens =>
      match Assembly.tokenize source with
      | .ok tokens => pure (some (lines (tokens.map Assembly.Token.text)))
      | .error e => throw ⟨"failed to tokenize RAM source", [e.message]⟩
    | .tree => pure (some (program.listing true))
    | .assembly => pure (some (program.listing false))
    | .nothing => pure none
  return ⟨text, program, registers, []⟩

def prepareStructured (emit : Emit) (registers : Nat) (source : String) :
    Except Report Prepared := do
  let headline := "failed to compile FAIL source"
  let (compilation, program) ← (build source).mapError (Report.ofFailure headline)
  let text ←
    match emit with
    | .tokens =>
      match Structured.tokenize source with
      | .ok tokens => pure (some (lines (tokens.map Structured.Token.text)))
      | .error e => throw ⟨"failed to tokenize FAIL source", [e.message]⟩
    | .tree => pure (some compilation.tree.text)
    | .assembly => pure (some compilation.emission.assembly)
    | .nothing => pure none
  return ⟨text, program, max compilation.emission.registerCount registers,
    compilation.emission.symbols⟩

/-- **The program of a source**, and the text that the options ask for. -/
def prepare (o : Options) (source : String) : Except Report Prepared :=
  match o.sourceDialect with
  | .assembly => prepareAssembly o.wanted o.settings.registers source
  | .structured => prepareStructured o.wanted o.settings.registers source

/-! ## Running -/

/-- How a session fails. -/
inductive Trouble
  | report (report : Report)
  /-- The session panics, and has nothing to say about it. -/
  | panic

/-- More instructions than anybody waits for. -/
def patience : Nat := 1000000000000000000

/-- The lines of the trace that an event adds. -/
def traceText (memory : Array Assembly.Instruction) (bank : Bank) : Event → String
  | .stepped address =>
    match memory[address]? with
    | some i => Assembly.addressed address i ++ "\n"
    | none => ""
  | .changed register value => s!"      {bank.name register} <- {value.toNat}\n"
  | .started | .stopped _ => ""

/-- The variable that a symbol stands for, with its value; nothing if it is not in the bank. -/
def variableText (b : Bank) (s : Structured.Symbol) : Option String :=
  (b.read? s.register).map fun value =>
    let register := b.name s.register
    if 1 < s.width then
      let values := (List.range s.width).filterMap fun i => b.read? (s.register + i)
      let row := ", ".intercalate (values.map fun value => toString value.toNat)
      s!"{s.name} = [{row}] ({register}..)"
    else s!"{s.name} = {value.toNat} ({register})"

/-- What is said about a machine that stopped. -/
def finalText (reason : StopReason) (b : Bank) (symbols : List Structured.Symbol) : String :=
  lines (("stopped: " ++ reason.text) :: b.texts ++ symbols.filterMap (variableText b))

/-- A run ends well if the program ended. -/
def verdict : StopReason → Except Report Unit
  | .halted | .endOfProgram => .ok ()
  | .cancelled => .error ⟨"run cancelled before the program finished", []⟩
  | reason => .error ⟨"program stopped: " ++ reason.text, []⟩

/-- The report on settings that no machine can have. -/
def settingsReport (headline : String) (e : SettingsError) : Report :=
  Report.ofFailure headline (.settings e)

/-- What is printed about a run, how many nanoseconds it took, and how it ended. -/
structure Conclusion where
  text : String
  duration : Nat
  verdict : Except Report Unit

/-- The nanoseconds of a run. A clocked run shows its last state for one more period, and a run that
is cancelled takes all of its time. -/
def duration (timeout : Option Nat) (p : Pacing) (reason : StopReason) (instructions : Nat) : Nat :=
  match p, reason, timeout with
  | .realTime, _, _ => 0
  | .clocked _, .cancelled, some milliseconds => milliseconds * 1000000
  | .clocked period, _, _ => period * (instructions + 1)

/-- The log of a run: the lines of its trace and the number of instructions. -/
structure Log where
  trace : String := ""
  instructions : Nat := 0

/-- The log with one more event. The names of the registers are those of the bank. -/
def Log.add (traced : Bool) (memory : Array Assembly.Instruction) (bank : Bank) (log : Log)
    (e : Event) : Log :=
  let trace := if traced then log.trace ++ traceText memory bank e else log.trace
  match e with
  | .stepped _ => ⟨trace, log.instructions + 1⟩
  | _ => ⟨trace, log.instructions⟩

/-- **The run of a program** as the options ask for it. -/
def conclude (o : Options) (p : Prepared) : Except Trouble Conclusion := do
  let settings := { o.settings with registers := p.registers }
  let m ← (Interpreter.ofSettings settings).mapError fun
    | .refused e => .report (settingsReport "invalid machine settings" e)
    | .panicked => .panic
  let m ← (m.load p.program p.registers).mapError fun e =>
    .report (settingsReport "failed to load program" e)
  let cancellation : Cancellation := ⟨o.timeout.map (· * 1000000)⟩
  match m.execute (Log.add o.trace m.memory m.bank) cancellation patience {} with
  | .error .unfinished => throw (.report ⟨"the run does not end", []⟩)
  | .error .panicked => throw (.report ⟨"interpreter thread panicked", []⟩)
  | .ok (m, log, reason) =>
    return ⟨log.trace ++ finalText reason m.bank p.symbols,
      duration o.timeout m.pacing reason log.instructions, verdict reason⟩

/-! ## Sessions -/

section Sessions

variable {m : Type → Type} [Monad m] (host : Host m)

/-- An operation of the host; a fault is reported under a headline. -/
def attempt {α : Type} (headline : String) (operation : m (Except FileFault α)) :
    ExceptT Report m α := do
  match ← (operation : m (Except FileFault α)) with
  | .ok a => return a
  | .error fault => throw ⟨headline, [fault.text]⟩

/-- The source that the options name. -/
def readSource (o : Options) : ExceptT Report m String := do
  match o.input with
  | none => attempt "failed to read standard input" host.readInput
  | some path =>
    match ← (host.readFile path : m (Except FileFault String)) with
    | .ok source => return source
    | .error fault =>
      throw ⟨"failed to read input file " ++ path,
        [s!"failed to read source {path}: {fault.text}", fault.text]⟩

/-- A new directory, unless it is there. -/
def settleDirectory (path : List Char) : m (Except FileFault Unit) := do
  match ← host.makeDirectory path with
  | .ok () => return .ok ()
  | .error fault => return if ← host.isDirectory path then .ok () else .error fault

/-- The first of these directories, of which each leads to the one before it. -/
def makeDirectories : List (List Char) → m (Except FileFault Unit)
  | [] | [[]] => return .ok ()
  | path :: before => do
    match ← host.makeDirectory path with
    | .error .missing =>
      match ← makeDirectories before with
      | .ok () => settleDirectory host path
      | .error fault => return .error fault
    | .error fault => return if ← host.isDirectory path then .ok () else .error fault
    | .ok () => return .ok ()

/-- A text goes to a file. What leads to the file is made. -/
def writeFile (path text : String) : ExceptT Report m Unit := do
  match Path.parent? path.toList with
  | none | some [] => pure ()
  | some parent =>
    attempt ("failed to create directory " ++ Text.quoted (String.ofList parent))
      (makeDirectories host (Path.ancestors parent))
  attempt ("failed to write output file " ++ path) (host.writeFile path text)

/-- A text goes where the options say. -/
def writeText (o : Options) (text : String) : ExceptT Report m Unit :=
  match o.output with
  | none => host.print text
  | some path => writeFile host path text

/-- The source of a session, and what is made of it. -/
def readProgram (o : Options) : ExceptT Report m Prepared := do
  (checkCount o.settings.registers).mapError (settingsReport "invalid --registers")
  let source ← readSource host o
  let prepared ← prepare o source
  if let some text := prepared.text then writeText host o text
  return prepared

/-- The work of a session. -/
def work (o : Options) : ExceptT Trouble m Unit := do
  let prepared ← (readProgram host o).adapt Trouble.report
  if o.run then
    let conclusion ← conclude o prepared
    host.pass conclusion.duration
    host.print conclusion.text
    conclusion.verdict.mapError Trouble.report

/-- **A session**, with its exit status. -/
def serve (arguments : List String) : m UInt32 := do
  match readArguments arguments with
  | .error misuse =>
    host.complain s!"error: {misuse.message}\n\nFor more information, try '--help'.\n"
    return 2
  | .ok .help =>
    host.print Help.text
    return 0
  | .ok .version =>
    host.print versionText
    return 0
  | .ok (.session o) =>
    match ← (work host o).run with
    | .ok () => return 0
    | .error (.report report) =>
      host.complain report.text
      return 1
    | .error .panic => return 101

end Sessions

end RegisterMachine.CommandLine
