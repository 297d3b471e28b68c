import Overseer.Daemon.Lifecycle
import Overseer.Fragment.Rebase
import Overseer.Notebook

set_option autoImplicit false

/-! # Checks

All checks of a workspace go through its lock, so they run one after the other in the order of
arrival, with the settings that hold when they run. Whatever goes wrong in a call of the
checker ends up in the result. Diagnostics are replaced by successful checks only, and what a
check of a removed workspace found is thrown away. -/

namespace Overseer.Check

open Op (state modify look log)

/-! ## Parts of a check -/

/-- The number of the lock of a workspace. -/
def lockFor (n : Nat) : Op Nat := do
  let s ← state
  let key := (s.workspace n).key
  match s.lockOf.get? key with
  | some l => return l
  | none =>
    modify fun s =>
      { s with lockOf := s.lockOf.insert key s.lockCount, lockCount := s.lockCount + 1 }
    return s.lockCount

/-- Forget the lock and the daemon handle of a workspace. -/
def forget (n : Nat) : Op Unit := do
  let ws ← Op.workspace n
  modify fun s => { s with lockOf := s.lockOf.erase ws.key }
  Daemon.forget n

/-- The number of the current collection of a workspace, created if there is none. -/
def collection (n : Nat) : Op Nat := do
  let s ← state
  let (store, id) := s.store.collection (s.workspace n).key
  modify fun s => { s with store }
  return id

/-- Change a collection. -/
def change (id : Nat) (f : Collection → Collection × Delta) : Op Unit :=
  modify fun s =>
    let (store, _, reaction) := s.store.change id f
    s.react store reaction

/-- Tell the person in front of the screen. -/
def notify (notice : Notice) : Op Unit := do
  if (← state).takesNotices then
    modify fun s => { s with notices := s.notices ++ [notice] }
  else log .warning .coordinator notice.summary

/-- A daemon that is stuck after its recovery is a failure of the tool. -/
def escalate (f : Failure) (cause : Option FaultClass) : Failure × Option FaultClass :=
  match f with
  | .daemonStuck ended _ =>
    (.toolFailure ended ("Daemon still not responding after recovery: " ++ f.message),
      some .daemonStuck)
  | f => (f, cause)

/-- The result of a check that failed. -/
def failed (n : Nat) (f : Failure) (cause : Option FaultClass) : Op CheckResult := do
  let ws ← Op.workspace n
  let (f, cause) := escalate f cause
  let detail := match f.ended? with
    | some ended => ended.describe
    | none => f.message
  log .warning .coordinator s!"Check failed for {ws.root.text}: {f.message}\n{detail}"
  if f.isUserFacing then notify ⟨ws.name ++ ": " ++ f.summary, detail⟩
  return { workspace := ws.key, ok := false, error := some f, cause }

/-- Call the checker; a fault becomes the result of the check. -/
def contained (n : Nat) (subject : String) (call : Op RunResult) :
    Op (Except CheckResult RunResult) := do
  match ← Op.attempt call with
  | .ok r => return .ok r
  | .error (.failure f cause) => return .error (← failed n f cause)
  | .error _ =>
    log .error .coordinator ("Unexpected error checking " ++ subject)
    return .error { workspace := (← Op.workspace n).key, ok := false }

/-- Run a check behind the lock of its workspace, unless the workspace has been removed. -/
def serialized (n : Nat) (check : Op CheckResult) : Op CheckResult := do
  let l ← lockFor n
  Op.withLock l do
    if ← Op.isRemoved n then
      let ws ← Op.workspace n
      log .debug .coordinator ("Skipping check of removed workspace " ++ ws.root.text)
      return { workspace := ws.key, ok := true, skipped := true }
    else check

/-- Whether results for a collection are to be thrown away. -/
def isStale (n id : Nat) : Op Bool := do
  let s ← state
  return ((s.store.at? id).map Collection.disposed).getD true || (s.registration n).removed

/-- The findings of a report. -/
def findings (report : String) : Op (List Finding) :=
  look fun _ => (Output.parse report).mapError .digits

/-! ## Whole workspaces -/

/-- Install what a check of a whole workspace found. -/
def install (n id : Nat) (run : RunResult) : Op CheckResult := do
  let found ← findings run.stdout
  let files ← look fun w => w.diagnosticsByFile found
  let count := files.values.flatten.length
  let ws ← Op.workspace n
  if ← isStale n id then
    log .debug .coordinator ("Discarding results for removed workspace " ++ ws.root.text)
  else
    change id (·.replaceFiles files)
    log .info .coordinator
      s!"{ws.root.text}: {count} diagnostics in {files.size} files ({run.outcome.name})"
  return { workspace := ws.key, ok := true, outcome := some run.outcome, diagnostics := count }

/-- Check a whole workspace whose lock is held. -/
def checkHolding (n : Nat) : Op CheckResult := do
  let id ← collection n
  let ws ← Op.workspace n
  if !ws.settings.isGiven .enabled then
    log .info .coordinator s!"Checking disabled for {ws.root.text}, clearing diagnostics"
    change id (·.clear .files)
    return { workspace := ws.key, ok := true, skipped := true }
  log .info .coordinator ("Checking " ++ ws.root.text)
  let call : Op RunResult := do
    let args ← look fun w => ws.runArgs w
    Daemon.run n "run" args true
  match ← contained n ws.root.text call with
  | .ok run => install n id run
  | .error result => return result

/-- Check a whole workspace. -/
def workspace (n : Nat) : Op CheckResult := serialized n (checkHolding n)

/-- Stop the daemon, then check. -/
def restart (n : Nat) : Op CheckResult :=
  serialized n do
    let _ ← Daemon.stop n
    checkHolding n

/-! ## Fragments -/

/-- Move findings from a buffer to its fragments, noting those that are dropped. -/
def rebase (map : LineMap) (found : List Finding) : Op (Assoc Int (List Diagnostic)) := do
  (map.dropped found).forM fun d => log .debug .remap d.text
  return (Rebased.group (map.rebaseAll found)).mapValues fun fs => fs.map Diagnostic.ofFinding

/-- Check the fragments of a virtual document while holding the lock of the workspace. -/
def fragmentsHolding (n : Nat) (document : String) (cells : List Cell) (language : String) :
    Op CheckResult := do
  let id ← collection n
  let ws ← Op.workspace n
  if !ws.settings.isGiven .enabled then
    change id (·.clear (.document document))
    return { workspace := ws.key, ok := true, skipped := true }
  let buffer := Buffer.ofFragments (← look fun _ => Cell.targets cells language) language
  if buffer.map.size = 0 then
    change id (·.clear (.document document))
    return { workspace := ws.key, ok := true, outcome := some .nothingToCheck }
  let count := buffer.map.fragments.length
  log .info .coordinator s!"Checking {document} ({count} fragments)"
  let call : Op RunResult := do
    let args ← look fun w => ws.checkerArgs w
    Daemon.runDirect n (.str "-c" :: .str buffer.text :: args)
  match ← contained n document call with
  | .error result => return result
  | .ok run =>
    let found ← findings run.stdout
    let fragments ← rebase buffer.map found
    let count := fragments.values.flatten.length
    if ← isStale n id then
      log .debug .coordinator ("Discarding results for removed workspace " ++ ws.root.text)
    else change id (·.replaceFragments document fragments)
    return { workspace := ws.key, ok := true, outcome := some run.outcome, diagnostics := count }

/-- Check the fragments of a virtual document. -/
def fragments (n : Nat) (document : String) (cells : List Cell) (language : String) :
    Op CheckResult :=
  serialized n (fragmentsHolding n document cells language)

/-! ## Daemons -/

/-- Stop the daemon without waiting for a check. -/
def stopDaemon (n : Nat) : Op CheckResult := do
  let stopped ← Daemon.stop n
  return { workspace := (← Op.workspace n).key, ok := stopped }

/-- Kill the daemon; if that fails its status file is removed. -/
def killDaemon (n : Nat) : Op CheckResult := do
  let killed ← Daemon.kill n
  if !killed then
    let id ← Daemon.handle n
    let _ ← Daemon.withHandle id Handle.removeStatusFile
  return { workspace := (← Op.workspace n).key, ok := killed }

end Overseer.Check

namespace Overseer

/-- The operation of a job. -/
def Job.operation : Job → Op CheckResult
  | check n => Check.workspace n
  | restart n => Check.restart n
  | stop n => Check.stopDaemon n

end Overseer
