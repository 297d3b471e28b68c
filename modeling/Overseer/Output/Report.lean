import Overseer.Output.Line
import Overseer.Output.Link

set_option autoImplicit false

/-! # Reports

A report is read line by line. A note that follows a note about the same place continues it:
the messages are joined, and the first error code is kept. When all lines are read each
finding gets its link. -/

namespace Overseer.Output

open Overseer.Text

/-- Whether a finding continues the note before it. -/
def continues (previous next : Finding) : Bool :=
  next.isNote && previous.isNote && previous.place == next.place

/-- A note with the note that continues it. -/
def join (previous next : Finding) : Finding :=
  { previous with
    message := previous.message ++ "\n" ++ next.message
    code := previous.code <|> next.code }

/-- Add a finding to those read so far, the last one first. -/
def addFinding (read : List Finding) (next : Finding) : List Finding :=
  match read with
  | previous :: rest =>
    if continues previous next then join previous next :: rest else next :: read
  | [] => [next]

/-- A line without the carriage returns that end it. -/
def dropReturns (line : String) : String :=
  String.ofList (dropEndWhile (· == '\r') line.toList)

/-- Give a finding its link. -/
def withLink (f : Finding) : Finding := { f with link := findLink f.message f.code }

/-- The findings of lines, in the order of the report. -/
def parseLines (lines : List String) : Except TooManyDigits (List Finding) := do
  let read ← lines.mapM fun line => parseLine (dropReturns line)
  let merged := (read.filterMap id).foldl addFinding []
  return merged.reverse.map withLink

/-- The findings of a report. -/
def parse (report : String) : Except TooManyDigits (List Finding) := parseLines (lines report)

/-- Whether some line of a report is a statement of the checker. -/
def hasStatements (report : String) : Bool := (lines report).any isStatement

end Overseer.Output
