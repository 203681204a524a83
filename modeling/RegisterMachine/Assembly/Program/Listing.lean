import RegisterMachine.Assembly.Program

/-! # Listings

A program written out in the order of memory, one label or instruction a line. A label stands before
the instruction that it marks; labels behind the last instruction come at the end. -/

namespace RegisterMachine.Assembly

/-- A text set flush right in a column. -/
def padLeft (width : Nat) (s : String) : String :=
  String.ofList (List.replicate (width - s.length) ' ') ++ s

/-- An instruction behind its address. -/
def addressed (address : Nat) (i : Instruction) : String :=
  s!"{padLeft 4 (toString address)}  {i.text}"

/-- The lines of the labels for which `here` holds of the address. -/
def labelLines (labels : List Label) (here : Nat → Bool) : List String :=
  (labels.filter fun l => here l.address).map fun l => s!"{l.name}:"

/-- The lines of one instruction: its labels and itself. -/
def instructionLines (labels : List Label) (addresses : Bool) (address : Nat) (i : Instruction) :
    List String :=
  labelLines labels (· == address) ++ [if addresses then addressed address i else i.text]

/-- The lines of a listing. -/
def Program.listingLines (p : Program) (addresses : Bool) : List String :=
  (p.instructions.toList.zipIdx.flatMap fun (i, address) =>
    instructionLines p.labels.toList addresses address i) ++
  labelLines p.labels.toList (p.instructions.size ≤ ·)

/-- **The listing of a program**, with or without addresses. -/
def Program.listing (p : Program) (addresses : Bool) : String :=
  String.join ((p.listingLines addresses).map (· ++ "\n"))

end RegisterMachine.Assembly
