import RegisterMachine.CommandLine.Switch
import RegisterMachine.Decimal.Reading

/-! # The arguments of the command line

Arguments are read from left to right. A switch is spelled `--name` or by one letter behind a dash,
where several letters may follow one another. A value follows behind `=`, in the next argument, or
right behind the letter. A next argument that starts with a dash is no value, unless it is the dash
alone. `--` ends the switches. A switch is given once, except for those that count.

* `Progress`: the options so far.
* `readArgument`: the effect of one argument.
* `readArguments`: what all of them ask for. The first demand for help or the version, or the first
  mistake, decides. -/

namespace RegisterMachine.CommandLine

/-- What is wrong with the arguments. -/
inductive Misuse
  /-- No switch is spelled like this. -/
  | unexpected (argument : String)
  | valueMissing (s : Switch)
  /-- A value for a switch that takes none. -/
  | valueUnwanted (s : Switch) (value : String)
  | valueInvalid (s : Switch) (value : String)
  | repeated (s : Switch)
deriving DecidableEq, Repr

def Misuse.message : Misuse → String
  | unexpected argument => s!"unexpected argument '{argument}' found"
  | valueMissing s => s!"a value is required for '--{s.long}' but none was supplied"
  | valueUnwanted s value => s!"unexpected value '{value}' for '--{s.long}' found"
  | valueInvalid s value => s!"invalid value '{value}' for '--{s.long}'"
  | repeated s => s!"the argument '--{s.long}' cannot be used multiple times"

/-! ## Values -/

/-- The number that a text of digits spells. -/
def digits? (digits : List Char) : Option Nat :=
  if digits.isEmpty || !digits.all Char.isDigit then none else some (Decimal.value digits)

/-- A number, possibly behind a plus. -/
def natural? : List Char → Option Nat
  | '+' :: rest => digits? rest
  | digits => digits? digits

/-- A number that fits a word. A minus is admitted in front of zero. -/
def wordSized? (value : String) : Option Nat :=
  let number :=
    match value.toList with
    | '-' :: rest => (digits? rest).filter (· == 0)
    | digits => natural? digits
  number.filter (· < Decimal.wordCount)

/-- A number of milliseconds, which fits 64 bits. -/
def milliseconds? (value : String) : Option Nat :=
  (natural? value.toList).filter (· < 18446744073709551616)

/-- A path is not empty. -/
def path? (value : String) : Option String := if value.isEmpty then none else some value

/-! ## Switches -/

/-- The options so far, and the switches that have been given. -/
structure Progress where
  options : Options := {}
  given : List Switch := []

namespace Progress

/-- A switch is given. -/
def note (p : Progress) (s : Switch) : Except Misuse Progress :=
  if s ∈ p.given ∧ !s.repeatable then .error (.repeated s)
  else .ok { p with given := s :: p.given }

/-- The options with the value of a switch, if it is one that the switch admits. -/
def setValue? (o : Options) (s : Switch) (value : String) : Option Options :=
  match s with
  | .input => (path? value).map fun path => { o with input := some path }
  | .output => (path? value).map fun path => { o with output := some path }
  | .lang => (dialectNames.lookup value).map fun dialect => { o with dialect := some dialect }
  | .emit => (emitNames.lookup value).map fun emit => { o with emit := some emit }
  | .registers =>
    (wordSized? value).map fun registers =>
      { o with settings := { o.settings with registers } }
  | .speed =>
    (Decimal.float? value).map fun speed => { o with settings := { o.settings with speed } }
  | .timeout => (milliseconds? value).map fun timeout => { o with timeout := some timeout }
  | _ => none

/-- The options with a switch that takes no value. -/
def raise (o : Options) (s : Switch) : Options :=
  match s with
  | .run => { o with run := true }
  | .realTime => { o with settings := { o.settings with realTime := true } }
  | .trace => { o with trace := true }
  | .verbose => { o with verbosity := o.verbosity + 1 }
  | _ => o

/-- A switch is given with its value. -/
def set (p : Progress) (s : Switch) (value : String) : Except Misuse Progress := do
  let p ← p.note s
  match setValue? p.options s value with
  | some options => return { p with options }
  | none => throw (.valueInvalid s value)

end Progress

/-! ## Arguments -/

/-- Where an argument leads. -/
inductive Reading
  | further (p : Progress)
  /-- The next argument is the value of this switch. -/
  | awaiting (s : Switch) (p : Progress)
  | answer (r : Request)

/-- A switch without a value. -/
def readFlag (p : Progress) (s : Switch) : Except Misuse Reading :=
  match s with
  | .help => .ok (.answer .help)
  | .version => .ok (.answer .version)
  | s => (p.note s).map fun p => .further { p with options := Progress.raise p.options s }

/-- A switch in its long spelling, perhaps with a value behind `=`. -/
def readLong (p : Progress) (name : List Char) (value : Option (List Char)) :
    Except Misuse Reading :=
  match Switch.ofLong? (String.ofList name) with
  | none => .error (.unexpected ("--" ++ String.ofList name))
  | some s =>
    match s.value?, value with
    | some _, some value => (p.set s (String.ofList value)).map .further
    | some _, none => .ok (.awaiting s p)
    | none, some value => .error (.valueUnwanted s (String.ofList value))
    | none, none => readFlag p s

/-- The value right behind a letter, with or without `=`. -/
def attached : List Char → List Char
  | '=' :: value => value
  | value => value

/-- Switches by letters, one behind the other. -/
def readLetters (p : Progress) : List Char → Except Misuse Reading
  | [] => .ok (.further p)
  | c :: rest =>
    match Switch.ofShort? c with
    | none => .error (.unexpected (String.ofList ['-', c]))
    | some s =>
      match s.value?, rest with
      | some _, [] => .ok (.awaiting s p)
      | some _, rest => (p.set s (String.ofList (attached rest))).map .further
      | none, rest => do
        match ← readFlag p s with
        | .further p => readLetters p rest
        | reading => return reading

/-- The parts of an argument before and behind its first `=`. -/
def splitValue (argument : List Char) : List Char × Option (List Char) :=
  match argument.dropWhile (· != '=') with
  | [] => (argument, none)
  | _ :: value => (argument.takeWhile (· != '='), some value)

/-- **The effect of one argument.** -/
def readArgument (p : Progress) (argument : String) : Except Misuse Reading :=
  match argument.toList with
  | '-' :: '-' :: rest =>
    let (name, value) := splitValue rest
    readLong p name value
  | '-' :: c :: rest => readLetters p (c :: rest)
  | _ => .error (.unexpected argument)

/-- An argument that can be the value of the switch before it. -/
def isValue (argument : String) : Bool :=
  match argument.toList with
  | '-' :: _ :: _ => false
  | _ => true

/-- What the arguments ask for, behind those that led to `p`. -/
def readFrom (p : Progress) : List String → Except Misuse Request
  | [] => .ok (.session p.options)
  | argument :: rest =>
    if argument = "--" then
      match rest with
      | [] => .ok (.session p.options)
      | surplus :: _ => .error (.unexpected surplus)
    else
      match readArgument p argument, rest with
      | .error e, _ => .error e
      | .ok (.answer r), _ => .ok r
      | .ok (.further p), rest => readFrom p rest
      | .ok (.awaiting s _), [] => .error (.valueMissing s)
      | .ok (.awaiting s p), value :: rest =>
        if isValue value then
          match p.set s value with
          | .ok p => readFrom p rest
          | .error e => .error e
        else .error (.valueMissing s)

/-- **What the arguments ask for.** -/
def readArguments (arguments : List String) : Except Misuse Request := readFrom {} arguments

end RegisterMachine.CommandLine
