import Overseer.Output.Report
import Overseer.Process.Ended

set_option autoImplicit false

/-! # What the end of a checker process means

Exit code zero is success whatever was written. Otherwise the error stream tells a missing
checker from a daemon that no longer answers, and a note that there is nothing to check wins
over the exit code. Of the remaining ends, exit code one of a checking command means that
errors were found, and exit code two with statements in the report means errors that block
further checking. -/

namespace Overseer

/-- What the end of a process means. -/
inductive Outcome where
  | success | nothingToCheck | syntaxFatal | toolFailure | environmentFailure | daemonStuck
  deriving DecidableEq, Repr

namespace Outcome

/-- The name of an outcome. -/
def name : Outcome → String
  | success => "success"
  | nothingToCheck => "nothing-to-check"
  | syntaxFatal => "syntax-fatal"
  | toolFailure => "tool-reported-failure"
  | environmentFailure => "environment-failure"
  | daemonStuck => "daemon-stuck"

/-- Whether the process did its work. -/
def isSuccess : Outcome → Bool
  | success | nothingToCheck | syntaxFatal => true
  | _ => false

/-- Words of an interpreter without the checker. -/
def environmentWords : List String := ["No module named mypy", "No module named 'mypy"]

/-- Words of a client whose daemon does not answer. -/
def stuckWords : List String := [
  "ConnectionRefusedError", "Connection refused", "[Errno 2] No such file or directory",
  "Socket operation on non-socket", "[WinError 10061]", "[WinError 2]", "Daemon has died",
  "Daemon crashed", "Response: \x7b\x7d"]

/-- Words of a checker without input. -/
def nothingWords : List String := ["There are no .py[i] files", "Nothing to do?!"]

/-- Whether a text holds one of several words. -/
def mentions (words : List String) (text : String) : Bool := words.any (Text.contains text)

/-- Whether a command reports findings. -/
def isCheck (command : String) : Bool := ["run", "check", "recheck", "-c"].contains command

/-- What the end of a process means for the command that it ran. -/
def classify (ended : Ended) (command : String) : Outcome :=
  if ended.exitCode = some 0 then success
  else if mentions environmentWords ended.stderr then environmentFailure
  else if mentions stuckWords ended.stderr then daemonStuck
  else if mentions nothingWords (ended.stdout ++ "\n" ++ ended.stderr) then nothingToCheck
  else if isCheck command && ended.exitCode = some 1 then success
  else if isCheck command && ended.exitCode = some 2 && Output.hasStatements ended.stdout then
    syntaxFatal
  else toolFailure

end Outcome

end Overseer
