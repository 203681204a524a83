import RegisterMachine.CommandLine.Session

/-! # The program

A session with the files, streams and clock of the system. -/

namespace RegisterMachine.CommandLine

/-- The number of an error, which some operations of the system give with a minus. -/
def errorNumber (code : UInt32) : Nat := code.toInt32.toInt.natAbs

/-- The fault that an error of the system stands for. -/
def FileFault.ofError : IO.Error → FileFault
  | .noFileOrDirectory .. => .missing
  | .alreadyExists .. => .occupied
  | .inappropriateType _ code _ => if errorNumber code = 21 then .isDirectory else .notDirectory
  | .invalidArgument _ code details =>
    if errorNumber code = 36 then .nameTooLong else .other details (errorNumber code)
  | .resourceExhausted _ code details =>
    if errorNumber code = 28 then .noSpace else .other details (errorNumber code)
  | .permissionDenied _ code _ => .other "Permission denied" (errorNumber code)
  | e => .other (toString e) 5

/-- An operation of the system, its error as a fault. -/
def guarded {α : Type} (operation : IO α) : IO (Except FileFault α) := do
  match ← operation.toBaseIO with
  | .ok a => return .ok a
  | .error e => return .error (.ofError e)

/-- Bytes as a text. -/
def decoded (bytes : Except FileFault ByteArray) : Except FileFault String :=
  bytes.bind fun bytes =>
    match String.fromUTF8? bytes with
    | some text => .ok text
    | none => .error .notText

/-- The host that the system is. -/
def systemHost : Host IO where
  readFile path := return decoded (← guarded (IO.FS.readBinFile path))
  readInput := do
    let input ← IO.getStdin
    return decoded (← guarded (input.readBinToEnd))
  makeDirectory path := guarded (IO.FS.createDir (String.ofList path))
  isDirectory path := do
    match ← guarded (IO.FS.readBinFile (String.ofList path)) with
    | .error .isDirectory => return true
    | _ => return false
  writeFile path text := guarded do
    let file ← IO.FS.Handle.mk path .write
    file.putStr text
    file.flush
  print text := IO.print text
  complain text := IO.eprint text
  pass nanoseconds := IO.sleep (min (nanoseconds / 1000000) 4294967295).toUInt32

end RegisterMachine.CommandLine

/-- **The program.** -/
def main (arguments : List String) : IO UInt32 :=
  RegisterMachine.CommandLine.serve RegisterMachine.CommandLine.systemHost arguments
