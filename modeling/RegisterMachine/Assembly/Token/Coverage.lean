import RegisterMachine.Assembly.Token

/-! # The characters that tokens cover

`covered source tokens` cuts the spans of the tokens out of a text and joins them. For the tokens of
the text itself this is the text without blanks and comments. A span outside the text, or with a
line or column of zero, covers nothing, and one that runs over the end of its line is cut there. -/

namespace RegisterMachine.Assembly

/-- The lines of a text, without the line feed or the carriage return and line feed that end them.
A line feed at the end of the text opens no further line. -/
def lines (text : List Char) : List (List Char) :=
  let pieces := text.splitOn '\n'
  let complete := pieces.dropLast.map fun line =>
    if line.getLast? = some '\r' then line.dropLast else line
  match pieces.getLast? with
  | some [] | none => complete
  | some last => complete ++ [last]

/-- The characters of one span. -/
def coveredBy (lines : List (List Char)) (span : Span) : List Char :=
  if span.line = 0 ∨ span.column = 0 then []
  else
    let line := lines.getD (span.line - 1) []
    (line.drop (span.column - 1)).take span.length

/-- **The characters that the tokens cover.** -/
def covered (source : String) (tokens : List Token) : String :=
  let lines := lines source.toList
  String.ofList (tokens.flatMap fun t => coveredBy lines t.span)

end RegisterMachine.Assembly
