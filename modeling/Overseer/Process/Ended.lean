import Overseer.Text.ShellWord

set_option autoImplicit false

/-! # Finished child processes -/

namespace Overseer

/-- A child process that has ended, with what it wrote. -/
structure Ended where
  /-- The command line. -/
  argv : List String
  /-- The exit code, if there is one. -/
  exitCode : Option Int
  stdout : String
  stderr : String
  deriving DecidableEq, Repr

namespace Ended

/-- The text of an exit code. -/
def exitText (e : Ended) : String :=
  match e.exitCode with
  | some n => toString n
  | none => "None"

/-- The command line as one would type it. -/
def commandLine (e : Ended) : String := Text.shellLine e.argv

/-- A description over several lines for the log. -/
def describe (e : Ended) : String :=
  "Command: " ++ e.commandLine ++ "\nExit code: " ++ e.exitText ++ "\nStdout:\n" ++ e.stdout ++
    "\nStderr:\n" ++ e.stderr

end Ended

end Overseer
