import Overseer.Check.Run
import Overseer.Watch

set_option autoImplicit false

/-! # The supervisor

The supervisor keeps the registry of workspaces and takes in everything that the host has to
say about them: additions and removals, new settings, changed files, and wishes to check or to
stop all of them. -/

namespace Overseer.Supervisor

open Op (state modify look log)

/-! ## Signals -/

/-- Why the host asks for a check. -/
inductive Signal where
  | opened | manual | saved | created | deleted | renamed | configChanged | interpreterChanged
  deriving DecidableEq, Repr

namespace Signal

/-- All signals. -/
def all : List Signal :=
  [opened, manual, saved, created, deleted, renamed, configChanged, interpreterChanged]

/-- The word for a signal. -/
def word : Signal → String
  | opened => "opened"
  | manual => "manual"
  | saved => "saved"
  | created => "created"
  | deleted => "deleted"
  | renamed => "renamed"
  | configChanged => "config-changed"
  | interpreterChanged => "interpreter-changed"

/-- The signal that a word stands for. -/
def ofWord (s : String) : Except Fault Signal :=
  match all.find? (·.word == s) with
  | some signal => .ok signal
  | none => .error (.unknownSignal s)

/-- Signals about files. -/
def isAboutFiles : Signal → Bool
  | saved | created | deleted | renamed => true
  | _ => false

/-- Signals that ask for a new daemon. -/
def isRestart : Signal → Bool
  | configChanged | interpreterChanged => true
  | _ => false

end Signal

/-! ## The registry -/

/-- The key of a root. -/
def keyOf (root : String) : Op String := do
  return (← look fun w => w.resolve (Path.ofString root)).text

/-- The registration at a root. -/
def find (root : String) : Op (Option Nat) := do
  let key ← keyOf root
  return (← state).registry.get? key

/-- The registration at a root, which must be there. -/
def require (root : String) : Op Nat := do
  match ← find root with
  | some n => return n
  | none => throw (.unknownWorkspace root)

/-- Show everything in the log if some workspace asks for it. -/
def applyDebugLogging : Op Unit :=
  modify fun s =>
    if s.registered.any fun n => (s.workspace n).settings.isGiven .debugLogging then
      { s with world := { s.world with logLevel := .debug } }
    else s

/-- Give a registration new settings. -/
def replaceSettings (n : Nat) (settings : Settings) : Op Unit := do
  modify (·.setRegistration n fun r => { r with workspace := { r.workspace with settings } })
  applyDebugLogging

/-- Register a root; a root that is registered keeps its registration. -/
def add (root : String) (settings : Option Settings) : Op Nat := do
  let ws ← look fun w => Workspace.ofRoot w (Path.ofString root) (settings.getD {})
  let s ← state
  match s.registry.get? ws.key with
  | some n =>
    match settings with
    | some settings => replaceSettings n settings
    | none => pure ()
    return n
  | none =>
    let n := s.registrations.length
    modify fun s => { s with
      registrations := s.registrations ++ [⟨ws, false⟩]
      registry := s.registry.insert ws.key n
      store := (s.store.collection ws.key).1 }
    applyDebugLogging
    log .info .supervisor ("Added workspace " ++ ws.root.text)
    return n

/-- Dispose of the collection of a workspace. -/
def disposeStore (key : String) : Op Unit :=
  modify fun s =>
    let (store, reaction) := s.store.dispose key
    s.react store reaction

/-- Remove a root: its diagnostics are dropped and its daemon is stopped. -/
def remove (root : String) : Op Bool := do
  let key ← keyOf root
  match (← state).registry.get? key with
  | none => return false
  | some n =>
    modify fun s => { s with registry := s.registry.erase key }
    modify (·.setRegistration n fun r => { r with removed := true })
    disposeStore key
    let stopped ← Check.stopDaemon n
    Check.forget n
    let ws ← Op.workspace n
    log .info .supervisor ("Removed workspace " ++ ws.root.text)
    return stopped.ok

/-- Give a root new settings. -/
def update (root : String) (settings : Settings) : Op Nat := do
  let n ← require root
  replaceSettings n settings
  return n

/-! ## Checks -/

/-- Check the workspace at a root. -/
def check (root : String) : Op CheckResult := do Check.workspace (← require root)

/-- Check a notebook in the workspace at a root. -/
def notebook (root document : String) (cells : List Cell) (language : String) :
    Op CheckResult := do
  Check.fragments (← require root) document cells language

/-- Take in a signal; nothing is checked for an unknown root or if no changed path matters. -/
def signal (root : String) (reason : Signal) (paths : List String) :
    Op (Option CheckResult) := do
  match ← find root with
  | none =>
    log .debug .supervisor s!"Ignoring {reason.word} for unknown workspace {root}"
    return none
  | some n =>
    let ws ← Op.workspace n
    if reason.isRestart then
      log .info .supervisor s!"{reason.word}: restarting daemon for {ws.root.text}"
      return some (← Check.restart n)
    if reason.isAboutFiles then
      let config ← look ws.configFile
      let relevant ← look fun w => Watch.filterRelevant w ws.root config paths
      if !paths.isEmpty && relevant.isEmpty then
        log .debug .supervisor s!"{reason.word}: no relevant paths for {ws.root.text}"
        return none
    return some (← Check.workspace n)

/-! ## All workspaces -/

/-- The result of a job; a fault is noted and counts as a failure. -/
def jobResult (n : Nat) : Except Fault CheckResult → Op CheckResult
  | .ok r => return r
  | .error e => do
    let ws ← Op.workspace n
    log .error .supervisor s!"Operation failed for {ws.root.text}: {e.literal}"
    return { workspace := ws.key, ok := false }

/-- Do a job on every registered workspace. -/
def fanOut (job : Nat → Job) : Op BatchReport := do
  let numbers := (← state).registered
  let results ← Op.gather (numbers.map job)
  let report : BatchReport := ⟨← (numbers.zip results).mapM fun (n, r) => jobResult n r⟩
  if !report.failures.isEmpty then
    let failures := report.failures.length
    let all := report.results.length
    log .warning .supervisor s!"{failures} of {all} workspaces failed"
  return report

/-- Check all workspaces. -/
def recheckAll : Op BatchReport := fanOut .check

/-- Restart all daemons and check all workspaces. -/
def restartAll : Op BatchReport := fanOut .restart

/-- Stop all daemons. -/
def stopAll : Op BatchReport := fanOut .stop

/-- Start supervising. -/
def start : Op Unit := do
  modify fun s => { s with running := true }
  log .info .supervisor "Supervisor started"

/-- Stop all daemons and stop supervising. -/
def shutdown : Op BatchReport := do
  let report ← stopAll
  modify fun s => { s with running := false }
  log .info .supervisor "Supervisor stopped"
  return report

end Overseer.Supervisor
