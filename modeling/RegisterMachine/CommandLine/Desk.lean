import RegisterMachine.CommandLine.Session

/-! # Sessions in memory

A desk holds everything that a session touches: a tree of files, the bytes of standard input, and
what was printed and complained. Time passes on it without waiting. The standard streams can also
be reached as devices of the tree.

* `Desk.host`: the desk as the host of a session.
* `Desk.serve`: a session on a desk. -/

namespace RegisterMachine.CommandLine

structure Desk where
  tree : FileTree := {}
  input : ByteArray := ByteArray.empty
  printed : String := ""
  complaints : String := ""

namespace Desk

def print (d : Desk) (text : String) : Desk := { d with printed := d.printed ++ text }

def complain (d : Desk) (text : String) : Desk := { d with complaints := d.complaints ++ text }

/-- Standard input as a text. -/
def inputText (d : Desk) : Except FileFault String :=
  match String.fromUTF8? d.input with
  | some text => .ok text
  | none => .error .notText

/-- **The text at a path.** -/
def read (d : Desk) (path : String) : Except FileFault String :=
  match d.tree.opened? path.toList with
  | .error fault => .error fault
  | .ok .directory => .error .isDirectory
  | .ok (.file text) => .ok text
  | .ok (.device .input) => d.inputText
  | .ok (.device .detached) => .error .noDevice
  | .ok (.device _) | .ok (.link _) => .ok ""

/-- **The desk with a text written to a path.** -/
def write (d : Desk) (path text : String) : Except FileFault Desk :=
  match d.tree.target? path.toList with
  | .error fault => .error fault
  | .ok place =>
    match d.tree.entry? place with
    | some (.device .detached) => .error .noDevice
    | some (.device .full) => if text.isEmpty then .ok d else .error .noSpace
    | some (.device .output) => .ok (d.print text)
    | some (.device .complaints) => .ok (d.complain text)
    | some (.device _) => .ok d
    | _ => .ok { d with tree := d.tree.put place (.file text) }

/-- An operation that changes the desk or is refused. -/
def change (operation : Desk → Except FileFault Desk) : StateM Desk (Except FileFault Unit) := do
  match operation (← get) with
  | .ok d =>
    set d
    return .ok ()
  | .error fault => return .error fault

/-- **The desk as a host.** -/
def host : Host (StateM Desk) where
  readFile path := return (← get).read path
  readInput := return (← get).inputText
  makeDirectory path :=
    change fun d => (d.tree.makeDirectory? path).map fun tree => { d with tree }
  isDirectory path := return (← get).tree.isDirectory path
  writeFile path text := change (·.write path text)
  print text := modify (·.print text)
  complain text := modify (·.complain text)
  pass _ := return ()

/-- **A session on a desk**: the exit status, and the desk afterwards. -/
def serve (d : Desk) (arguments : List String) : UInt32 × Desk :=
  (CommandLine.serve host arguments).run d

/-- The desk with a file, and with all directories that lead to it. -/
def withFile (d : Desk) (path text : String) : Except Report Unit × Desk :=
  (writeFile host path text).run.run d

end Desk

end RegisterMachine.CommandLine
