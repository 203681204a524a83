import RegisterMachine.CommandLine.Switch
import RegisterMachine.Decimal.Shortest

/-! # Help

The help has a line for every switch: its spellings and, set in a column, its summary with what is
to be said about its values. Lines are as long as they need to be. -/

namespace RegisterMachine.CommandLine

def programName : String := "ram-cli"

/-- What `--version` prints. -/
def versionText : String := programName ++ " 0.1.0\n"

namespace Help

/-- A text followed by blanks up to this width. -/
def padRight (width : Nat) (s : String) : String :=
  s ++ String.ofList (List.replicate (width - s.length) ' ')

/-- The spellings of a switch. -/
def spelling (s : Switch) : String :=
  let short :=
    match s.short? with
    | some c => String.ofList ['-', c, ',', ' ']
    | none => "    "
  let value :=
    match s.value? with
    | some name => " <" ++ name ++ ">"
    | none => ""
  "  " ++ short ++ "--" ++ s.long ++ value ++ if s.repeatable then "..." else ""

/-- The values that a switch admits, or the one that it has when it is absent. -/
def note (s : Switch) : String :=
  let values (names : List String) := " [possible values: " ++ ", ".intercalate names ++ "]"
  let settings : Machine.Settings := {}
  match s with
  | .lang => values (dialectNames.map Prod.fst)
  | .emit => values (emitNames.map Prod.fst)
  | .registers => s!" [default: {settings.registers}]"
  | .speed => s!" [default: {Decimal.text settings.speed}]"
  | _ => ""

/-- The column of the summaries. -/
def column : Nat := (Switch.all.map fun s => (spelling s).length + 2).foldl max 0

/-- The line of a switch. -/
def entry (s : Switch) : String := padRight column (spelling s) ++ s.summary ++ note s

/-- **What `--help` prints.** -/
def text : String :=
  String.join
    (([ "Assemble, compile and run programs for the RAM register machine",
        "",
        "Usage: " ++ programName ++ " [OPTIONS]",
        "",
        "Options:" ] ++ Switch.all.map entry).map (· ++ "\n"))

end Help

end RegisterMachine.CommandLine
