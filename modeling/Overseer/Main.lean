import Overseer.CommandLine.Run
import Overseer.Scenario

set_option autoImplicit false

/-! # The program

The command line is run in the scenario that stands on the standard input. -/

open Overseer

/-- Show what a command line came to, and give its exit code. A fault that nobody handled is
named on the error stream. -/
def Overseer.CommandLine.Conclusion.show (c : CommandLine.Conclusion) : IO UInt32 := do
  let w := c.session.state.world
  (← IO.getStdout).putStr w.stdout
  let error ← IO.getStderr
  error.putStr w.stderr
  match c.result with
  | some (.ok code) => return code.toUInt32
  | some (.error e) =>
    error.putStrLn (e.cls.name ++ ": " ++ e.message)
    return 1
  | none =>
    error.putStrLn "A child process does not end."
    return 1

/-- Run a command line. -/
def main (words : List String) : IO UInt32 := do
  let input ← (← IO.getStdin).readToEnd
  match Json.read input with
  | .error _ =>
    (← IO.getStderr).putStrLn "The scenario is not JSON."
    return 1
  | .ok scenario =>
    (CommandLine.run (Scenario.world scenario) (Scenario.script scenario) words).show
