import Overseer.Json.Writer
import Overseer.Session.Program

set_option autoImplicit false

/-! # What a command shows

After a check the diagnostics of all workspaces are shown: as lines in the order of their
locations, with the failures on the error stream, or as one JSON value that also holds the
report. -/

namespace Overseer.CommandLine

/-- Where diagnostics are, as the user sees it. -/
def location : DocumentKey → String
  | .file path => path
  | .fragment document index => s!"{document}#cell{index}"

/-- A diagnostic as a line; positions count from one. -/
def diagnosticLine (place : String) (d : Diagnostic) : String :=
  let line := d.range.startLine + 1
  let column := d.range.startColumn + 1
  let code := match d.code with
    | some code => if code.isEmpty then "" else s!"  [{code}]"
    | none => ""
  s!"{place}:{line}:{column}: {d.severity.name}: {d.message}{code}\n"

/-- The diagnostics of all registered workspaces by location. Where two workspaces have a
location in common the later one counts. -/
def collected (s : State) : Assoc String (List Diagnostic) :=
  let entries := s.registry.keys.flatMap fun key =>
    match s.store.find? key with
    | some (_, c) => c.entries.entries
    | none => []
  Assoc.ofList (entries.map fun e => (location e.1, e.2))

/-- The lines about all diagnostics, sorted by location. -/
def diagnosticLines (found : Assoc String (List Diagnostic)) : List String :=
  (found.entries.mergeSort fun a b => a.1 ≤ b.1).flatMap fun e => e.2.map (diagnosticLine e.1)

/-- The line about a workspace that failed. -/
def failureLine (r : CheckResult) : String :=
  let text := match r.error with
    | some e => e.summary
    | none => "failed"
  s!"Error: {r.workspace}: {text}\n"

/-- Diagnostics and the report as one value. -/
def reportJson (found : Assoc String (List Diagnostic)) (report : BatchReport) : Json :=
  .obj [
    ("report", report.toJson),
    ("diagnostics", .obj (found.entries.map fun e => (e.1, .arr (e.2.map Diagnostic.toJson))))]

/-- The line about a daemon that was to be stopped. -/
def stopLine (r : CheckResult) : String :=
  r.workspace ++ ": " ++ (if r.ok then "stopped" else "failed to stop") ++ "\n"

/-- Write to the standard output. -/
def print (text : String) : Op Unit :=
  Op.modify fun s => { s with world := s.world.print text }

/-- Write to the error stream. -/
def printError (text : String) : Op Unit :=
  Op.modify fun s => { s with world := s.world.printError text }

/-- Show diagnostics and a report. -/
def emit (report : BatchReport) (json : Bool) : Op Unit := do
  let found := collected (← Op.state)
  if json then print ((reportJson found report).pretty ++ "\n")
  else
    (diagnosticLines found).forM print
    report.failures.forM fun r => printError (failureLine r)

/-- The exit code of a command. -/
def exitCode (report : BatchReport) : Nat := if report.ok then 0 else 1

end Overseer.CommandLine
