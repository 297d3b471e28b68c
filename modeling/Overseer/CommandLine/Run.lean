import Overseer.CommandLine.Invocation
import Overseer.CommandLine.Report
import Overseer.Log.Setup
import Overseer.Session.Scheduler
import Overseer.Settings.Layers
import Overseer.Supervisor

set_option autoImplicit false

/-! # Running a command line

A command line is read, the workspaces are looked at and registered, and the command is run on
them. The result is an exit code; a fault that nobody handles ends the program instead. -/

namespace Overseer.CommandLine

open Op (look)

/-- Set up the log, start supervising and register the workspaces. -/
def prepare (inv : Invocation) (order : Order) : Op Unit := do
  Op.act (Act.setUpLog inv.debug inv.logFile)
  Supervisor.start
  order.roots.forM fun root => do
    let settings ← Op.act (Settings.load root inv.settings none)
    let _ ← Supervisor.add root (some settings)

/-- Whether a fault means that a notebook cannot be read. -/
def isUnreadable (e : Fault) : Bool := e.cls.isA .os || e.cls.isA .json

/-- Check a notebook. -/
def checkNotebook (roots : List String) (path : Option String) (json : Bool) : Op Nat := do
  match path with
  | none => throw (.misuse (.notPath .arr))
  | some path =>
    let document ← Supervisor.keyOf path
    match ← Op.attempt (look fun w => Notebook.readCells w document) with
    | .ok cells =>
      let result ← Supervisor.notebook (roots.headD "") document cells Notebook.defaultLanguage
      let report : BatchReport := ⟨[result]⟩
      emit report json
      return exitCode report
    | .error e =>
      if isUnreadable e then
        printError s!"Error: cannot read notebook {document}: {e.message}\n"
        return 1
      else throw e

/-- Run a command on the registered workspaces. -/
def execute : Order → Op Nat
  | .check _ json => do
    let report ← Supervisor.recheckAll
    emit report json
    return exitCode report
  | .restart _ json => do
    let report ← Supervisor.restartAll
    emit report json
    return exitCode report
  | .notebook roots path json => checkNotebook roots path json
  | .stop _ => do
    let report ← Supervisor.shutdown
    report.results.forM fun r => print (stopLine r)
    return exitCode report

/-- How a command line ended: what has happened by then, and the exit code. There is no exit
code as long as a child process goes on. -/
structure Conclusion where
  session : Session Nat
  result : Option (Except Fault Nat)

namespace Conclusion

/-- A command line that ends before anything is supervised. -/
def early (script : List Behaviour) (w : World) (code : Nat) : Conclusion :=
  ⟨{ state := { world := w }, script }, some (.ok code)⟩

end Conclusion

/-- How daemons are run for a command line. -/
def daemonConfig (inv : Invocation) : DaemonConfig :=
  { identity :=
      { id := some inv.identity
        stateDir := match inv.stateDir with
          | some dir => if dir.isEmpty then none else some (Path.ofString dir)
          | none => none } }

/-- Run an order whose workspaces are there. -/
def supervise (w : World) (script : List Behaviour) (inv : Invocation) (order : Order) :
    Conclusion :=
  let state : State := { world := w, daemons := daemonConfig inv, takesNotices := false }
  let s : Session Nat := { state, script }
  let s := s.submit 0 (do prepare inv order; return 0)
  match s.result? 0 with
  | some (.ok _) =>
    let s := s.submit 1 (execute order)
    ⟨s, s.result? 1⟩
  | other => ⟨s, other⟩

/-- The first workspace that is no directory. -/
def missingRoot? (w : World) (order : Order) : Except Fault (Option String) :=
  order.roots.findM? fun root => return !(← w.isDirectory (Path.ofString root))

/-- Run a command line in a world where children behave as a script says. -/
def run (w : World) (script : List Behaviour) (words : List String) : Conclusion :=
  match Invocation.read words with
  | .error (.help g) => .early script (w.print g.help) 0
  | .error (.misuse g c) => .early script (w.printError (misuseText g c)) 2
  | .ok inv =>
    match inv.order with
    | none => .early script (w.print mainGrammar.help) 1
    | some order =>
      match missingRoot? w order with
      | .error e => ⟨{ state := { world := w }, script }, some (.error e)⟩
      | .ok (some root) =>
        .early script (w.printError s!"Error: not a directory: {root}\n") 1
      | .ok none => supervise w script inv order

end Overseer.CommandLine
