import RegisterMachine.Toolchain

/-! # Reports of what went wrong

A report says what could not be done, and below it why: each cause on a line of its own, the nearest
first, numbered if there are several. Further lines of a cause are indented like its first. -/

namespace RegisterMachine.CommandLine

structure Report where
  headline : String
  causes : List String := []
deriving DecidableEq, Repr

namespace Report

/-- A failure of the toolchain under a headline. -/
def ofFailure (headline : String) (f : Failure) : Report :=
  ⟨headline, f.message :: f.cause?.toList⟩

/-- A cause behind this margin; its further lines stand under its first. -/
def marginal (margin cause : String) : String :=
  let below := String.ofList ('\n' :: List.replicate margin.length ' ')
  margin ++ below.intercalate ((cause.toList.splitOn '\n').map String.ofList) ++ "\n"

/-- The margin of the cause with this number. -/
def numbered (number : Nat) : String :=
  let digits := toString number
  String.ofList (List.replicate (5 - digits.length) ' ') ++ digits ++ ": "

/-- The causes, each behind its margin. -/
def causeText : List String → String
  | [cause] => marginal "    " cause
  | causes => String.join (causes.zipIdx.map fun (cause, n) => marginal (numbered n) cause)

/-- **The text of a report.** -/
def text (r : Report) : String :=
  let causes := if r.causes.isEmpty then "" else "\nCaused by:\n" ++ causeText r.causes
  "Error: " ++ r.headline ++ "\n" ++ causes

end Report

end RegisterMachine.CommandLine
