import RegisterMachine.Path

/-! # Files and directories

A tree of files in memory, with the operations that a session needs of a file system and the faults
that these can meet. A path is followed name by name; every name but the last must lead to a
directory, and names and paths have a greatest length. An entry can be a link to another place.

* `resolve`: the place that a path leads to.
* `opened?`, `target?`: what is read at a path, and where a text for it goes.
* `makeDirectory?`: a new directory. -/

namespace RegisterMachine.CommandLine

/-- Why an operation on files is refused. -/
inductive FileFault
  | missing
  | occupied
  | notDirectory
  | isDirectory
  /-- A name, or the whole path. -/
  | nameTooLong
  | noSpace
  | noDevice
  /-- The bytes are no UTF-8. -/
  | notText
  | other (description : String) (code : Nat)
deriving DecidableEq, Repr

def FileFault.text : FileFault → String
  | missing => "No such file or directory (os error 2)"
  | occupied => "File exists (os error 17)"
  | notDirectory => "Not a directory (os error 20)"
  | isDirectory => "Is a directory (os error 21)"
  | nameTooLong => "File name too long (os error 36)"
  | noSpace => "No space left on device (os error 28)"
  | noDevice => "No such device or address (os error 6)"
  | notText => "stream did not contain valid UTF-8"
  | other description code => s!"{description} (os error {code})"

/-- The names on the way to a place, the last one first. -/
abbrev Place := List (List Char)

/-- What stands in a tree like a file but keeps no text. -/
inductive Device
  /-- Always empty; forgets what is written to it. -/
  | sink
  /-- Takes no text but the empty one. -/
  | full
  /-- Is not there to be opened. -/
  | detached
  /-- Standard input. -/
  | input
  /-- Standard output. -/
  | output
  /-- Standard error. -/
  | complaints
deriving DecidableEq, Repr

inductive Entry
  | file (text : String)
  | directory
  | device (d : Device)
  /-- Another name of a place. -/
  | link (target : Place)
deriving DecidableEq, Repr

structure FileTree where
  entries : List (Place × Entry) := []
  /-- Where paths without a slash at their start begin. -/
  home : Place := []
  /-- Directories that take no new entries: what is not there is missing. -/
  closed : List Place := []

namespace FileTree

/-- What is at a place. The root is a directory. -/
def entry? (t : FileTree) : Place → Option Entry
  | [] => some .directory
  | place => t.entries.lookup place

/-- The tree with another entry at a place. -/
def put (t : FileTree) (place : Place) (e : Entry) : FileTree :=
  { t with entries := (place, e) :: t.entries.filter (·.1 != place) }

/-- Where a name leads that stands for a place. -/
def arrive (t : FileTree) (place : Place) : Place :=
  match t.entry? place with
  | some (.link target) => target
  | _ => place

/-- There can be a new entry at this place. -/
def admits (t : FileTree) (place : Place) : Bool := !t.closed.contains place.tail

/-! ## Paths -/

/-- Bytes of the longest name. -/
def maxName : Nat := 255

/-- Bytes of the longest path. -/
def maxPath : Nat := 4095

def byteCount (text : List Char) : Nat := (String.ofList text).utf8ByteSize

/-- One name further, which needs a directory. -/
def follow (t : FileTree) (place : Place) (name : List Char) : Except FileFault Place :=
  match t.entry? place with
  | some .directory =>
    match name with
    | [] | ['.'] => .ok place
    | ['.', '.'] => .ok place.tail
    | name =>
      if maxName < byteCount name then .error .nameTooLong else .ok (t.arrive (name :: place))
  | some _ => .error .notDirectory
  | none => .error .missing

/-- Where a path begins. -/
def start (t : FileTree) (path : List Char) : Except FileFault Place :=
  if path.isEmpty then .error .missing
  else if maxPath < byteCount path then .error .nameTooLong
  else if path.head? = some '/' then .ok []
  else .ok t.home

/-- **The place that a path leads to.** Nothing need be there, but all before it must be. -/
def resolve (t : FileTree) (path : List Char) : Except FileFault Place := do
  (Path.parts path).foldlM t.follow (← t.start path)

/-- **What is at the end of a path.** -/
def opened? (t : FileTree) (path : List Char) : Except FileFault Entry := do
  match t.entry? (← t.resolve path) with
  | some e => return e
  | none => throw .missing

/-- **Where a text for a path goes**: the place of a file, which may be new, or of a device. A path
that ends in a slash or in points names a directory. -/
def target? (t : FileTree) (path : List Char) : Except FileFault Place := do
  let names := (Path.parts path).filter (· ≠ [])
  let before ← (names.dropLast ++ [['.']]).foldlM t.follow (← t.start path)
  match names.getLast? with
  | none | some ['.'] | some ['.', '.'] => throw .isDirectory
  | some name =>
    if path.getLast? = some '/' then throw .isDirectory
    let place ← t.follow before name
    match t.entry? place with
    | some .directory => throw .isDirectory
    | some _ => return place
    | none => if t.admits place then return place else throw .missing

def isDirectory (t : FileTree) (path : List Char) : Bool :=
  match t.opened? path with
  | .ok e => e == .directory
  | .error _ => false

/-! ## Changes -/

/-- The tree with a new directory. -/
def makeDirectory? (t : FileTree) (path : List Char) : Except FileFault FileTree := do
  let place ← t.resolve path
  match t.entry? place with
  | some _ => throw .occupied
  | none => if t.admits place then return t.put place .directory else throw .missing

end FileTree

end RegisterMachine.CommandLine
