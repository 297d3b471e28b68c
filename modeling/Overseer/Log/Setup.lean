import Overseer.World

set_option autoImplicit false

/-! # Setting up the log

Log lines go to the error stream, and to a file if one is named. Setting the log up again
changes the level and adds files, but never writes a line to the error stream twice. -/

namespace Overseer

namespace World

/-- Show log lines on the error stream, unless they already go somewhere. -/
def openConsole (w : World) : World :=
  if w.sinks.isEmpty then { w with sinks := [.console] } else w

/-- The level of a log, depending on whether it shows everything. -/
def setLogDetail (w : World) (debug : Bool) : World :=
  { w with logLevel := if debug then .debug else .info }

end World

/-- Also write log lines to a file, behind what is there. -/
def Act.openLogFile (file : String) : Act Unit := do
  let w ← get
  let path := (Files.absolute w.cwd file).text
  match Files.openForAppend w.files w.cwd path with
  | .ok (files, place) => set { w with files, sinks := w.sinks ++ [LogSink.file place] }
  | .error refusal => throw (.files refusal path)

/-- Set the log up. The level and the error stream are settled even if the file is refused. -/
def Act.setUpLog (debug : Bool) (file : Option String) : Act Unit := do
  modify fun w => (w.setLogDetail debug).openConsole
  match file with
  | some file => openLogFile file
  | none => pure ()

end Overseer
