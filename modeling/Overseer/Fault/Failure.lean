import Overseer.Process.Ended
import Overseer.Text.Blank
import Overseer.Text.Search

set_option autoImplicit false

/-! # Failures of the checker

What can go wrong when the checker is called, with a text for the log and a summary for the
person in front of the screen. The summary quotes the first line that the checker wrote. -/

namespace Overseer

/-- What went wrong when the checker was called. -/
inductive Failure where
  /-- A failure without further structure. -/
  | general (text : String)
  /-- The executable or interpreter does not exist. -/
  | executableNotFound (location detail : String)
  /-- There is no interpreter, or the checker is not installed for it. -/
  | environmentMissing (text : String) (ended : Option Ended)
  /-- The checker ended with an unexpected code; an empty text stands for the usual one. -/
  | toolFailure (ended : Ended) (text : String)
  /-- The daemon did not answer; an empty text stands for the usual one. -/
  | daemonStuck (ended : Ended) (text : String)
  deriving DecidableEq, Repr

namespace Failure

/-- The text about a process that ended unexpectedly. -/
def endedText (ended : Ended) (text : String) : String :=
  if text.isEmpty then ended.commandLine ++ " exited with code " ++ ended.exitText else text

/-- The text of a failure. -/
def message : Failure → String
  | general text => text
  | executableNotFound location detail =>
    "Checker executable not found: " ++ location ++
      (if detail.isEmpty then "" else " (" ++ detail ++ ")")
  | environmentMissing text _ => text
  | toolFailure ended text => endedText ended text
  | daemonStuck ended text => endedText ended text

/-- The most characters of a line that a summary shows. -/
def summaryLength : Nat := 200

/-- A line shortened for a summary. -/
def shorten (cs : List Char) : List Char :=
  if summaryLength < cs.length then cs.take summaryLength ++ "...".toList else cs

/-- The first line with something on it, without the white space around it. -/
def firstLine? (text : String) : Option (List Char) :=
  ((Text.splitLines text.toList).map Text.trim).find? fun l => !l.isEmpty

/-- The first line of the error stream, or else of the output. -/
def quotedLine? (ended : Ended) : Option String :=
  ((firstLine? ended.stderr) <|> (firstLine? ended.stdout)).map fun l => String.ofList (shorten l)

/-- The summary of a process that ended unexpectedly. -/
def endedSummary (ended : Ended) : String :=
  match quotedLine? ended with
  | some line => "mypy failed: " ++ line
  | none => "mypy failed with exit code " ++ ended.exitText

/-- What a summary of a stuck daemon says about the process. -/
def stuckSummary (ended : Ended) : String :=
  match quotedLine? ended with
  | some line => line
  | none => endedSummary ended

/-- The summary of a failure. -/
def summary : Failure → String
  | toolFailure ended _ => endedSummary ended
  | daemonStuck ended _ => "mypy daemon is not responding: " ++ stuckSummary ended
  | f => f.message

/-- The process that a failure is about. -/
def ended? : Failure → Option Ended
  | environmentMissing _ ended => ended
  | toolFailure ended _ => some ended
  | daemonStuck ended _ => some ended
  | _ => none

/-- Whether a failure is shown to the person in front of the screen. -/
def isUserFacing : Failure → Bool := fun _ => true

end Failure

end Overseer
