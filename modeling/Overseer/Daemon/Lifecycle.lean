import Overseer.Retry
import Overseer.Session.Program

set_option autoImplicit false

/-! # Running, stopping and killing daemons

A command that finds its daemon stuck is repeated once: the daemon is killed, or its status
file removed if that fails, and after a pause the command is given again. Stopping is tried
twice as well, because a daemon that was started a moment ago may not have written its status
file; that there is no daemon counts as stopped only the second time. -/

namespace Overseer.Daemon

open Op (state modify look log)

/-! ## Handles -/

/-- The number of the handle of a workspace; a handle with another status file than the
configured one is replaced. -/
def handle (n : Nat) : Op Nat := do
  let ws ← Op.workspace n
  let configured ← look ws.statusFile
  let s ← state
  let fits (h : Handle) : Bool := match configured with
    | some path => h.statusFile = path
    | none => true
  match s.handleOf.get? ws.key with
  | some id =>
    if fits (s.handle id) then return id
  | none => pure ()
  let h ← look fun w => Handle.ofRoot w s.daemons.identity ws.root configured
  let id := s.handles.length
  modify fun s => { s with
    handles := s.handles ++ [h]
    handleOf := s.handleOf.insert ws.key id }
  return id

/-- Forget the handle of a workspace. -/
def forget (n : Nat) : Op Unit := do
  let ws ← Op.workspace n
  modify fun s => { s with handleOf := s.handleOf.erase ws.key }

/-- Do something in the world with a handle. -/
def withHandle {α : Type} (id : Nat) (f : Handle → Act α) : Op α := do
  Op.act (f ((← state).handle id))

/-- Say whether a daemon may be running. -/
def setStarted (id : Nat) (started : Bool) : Op Unit :=
  modify (·.setHandle id fun h => { h with started })

/-- The command line of a daemon command. -/
def argv (n : Nat) (command : String) (args : List Json) : Op (List Json) := do
  let id ← handle n
  let s ← state
  look fun w => (s.workspace n).daemonArgv w (s.handle id) command args

/-! ## Calls -/

/-- The words of a command line, all of which must be texts. -/
def words (argv : List Json) : Except Fault (List String) :=
  argv.zipIdx.mapM fun
    | (.str s, _) => .ok s
    | (v, i) => .error (.misuse (.joinedItem i v.kind))

/-- Start the checker; that it cannot be started means that it does not exist. -/
def startChecker (call : Call) : Op Ended := do
  match ← Op.attempt (Op.spawn call) with
  | .ok ended => return ended
  | .error e =>
    if e.cls.isA .os then
      let executable := call.argv.headD ""
      log .warning .adapter s!"Could not start {executable}: {e.message}"
      throw (.failure (.executableNotFound executable e.message) (some .os))
    else throw e

/-- The failure of a process with an outcome that is no success. -/
def failureOf (outcome : Outcome) (ended : Ended) : Failure :=
  match outcome with
  | .environmentFailure =>
    .environmentMissing ("mypy is not installed for interpreter " ++ ended.argv.headD "")
      (some ended)
  | .daemonStuck => .daemonStuck ended ""
  | _ => .toolFailure ended ""

/-- Call the checker for a workspace and judge how it ended. -/
def invoke (n : Nat) (argv : List Json) (command : String) : Op RunResult := do
  let ws ← Op.workspace n
  let root := ws.root.text
  let cwd ← look ws.cwd
  let env ← Op.act ws.environment
  let argv ← look fun _ => words argv
  let line := " ".intercalate argv
  log .debug .adapter s!"Running: {line} (cwd={cwd})"
  let ended ← startChecker ⟨argv, some cwd, some env⟩
  let outcome := Outcome.classify ended command
  if outcome = .nothingToCheck then
    log .info .adapter ("Nothing to check for " ++ root)
    return ⟨"", outcome, ended⟩
  if outcome.isSuccess then
    if outcome = .syntaxFatal then
      log .info .adapter ("mypy reported blocking errors for " ++ root)
    log .debug .adapter s!"{command} finished with exit code {ended.exitText}"
    return ⟨ended.stdout, outcome, ended⟩
  log .warning .adapter s!"dmypy {command} failed ({outcome.name})\n{ended.describe}"
  throw (.failure (failureOf outcome ended) none)

/-- Whether a fault says that the daemon does not answer. -/
def isStuck (e : Fault) : Bool := e.cls.isA .daemonStuck

/-- Whether a fault is a failure of the checker. -/
def isFailure (e : Fault) : Bool := e.cls.isA .checker

/-- One attempt at a command; a command that could not be started leaves the handle as it
was. -/
def attempt (n id : Nat) (argv : List Json) (command : String) : Op RunResult := do
  let wasStarted := (← state).started id
  if Workspace.startsDaemon command then setStarted id true
  match ← Op.attempt (invoke n argv command) with
  | .ok r => return r
  | .error e =>
    if e.cls.isA .executableNotFound then setStarted id wasStarted
    throw e

/-- Between two attempts at something. -/
def between (recover : Option (Fault → Op Unit)) (bound delay : Int) (number : Nat) (e : Fault) :
    Prog (Except Fault Unit) :=
  Retry.pause
    (fun text => do let _ ← (log .info .retry text).run)
    (recover.map fun f e => (f e).run)
    (fun ms => do let _ ← (Op.sleep ms).run)
    bound delay number e

/-- Give a command, up to a bound and with a recovery between attempts. -/
def give (n : Nat) (command : String) (args : List Json) (bound : Int)
    (recover : Option (Fault → Op Unit)) : Op RunResult := do
  let argv ← argv n command args
  let id ← handle n
  withHandle id Handle.ensureDirectories
  let delay := (← state).daemons.stuckDelay
  ExceptT.mk (Retry.bounded bound isStuck (fun _ => (attempt n id argv command).run)
    (between recover bound delay))

/-- Kill the daemon; false if that failed. -/
def kill (n : Nat) : Op Bool := do
  let id ← handle n
  match ← Op.attempt (give n "kill" [] 1 none) with
  | .ok _ =>
    setStarted id false
    return true
  | .error e =>
    if isFailure e then
      let ws ← Op.workspace n
      log .warning .adapter s!"Failed to kill daemon for {ws.root.text}: {e.message}"
      return false
    else throw e

/-- Get rid of a daemon that does not answer. -/
def recoverStuck (n : Nat) : Op Unit := do
  let ws ← Op.workspace n
  log .warning .adapter s!"Daemon for {ws.root.text} is not responding, killing it"
  if !(← kill n) then
    let id ← handle n
    let _ ← withHandle id Handle.removeStatusFile
    setStarted id false

/-- Give a command; one of the commands to be retried is repeated once if the daemon is stuck,
unless the caller does not want it. -/
def run (n : Nat) (command : String) (args : List Json) (retryOnStuck : Bool) : Op RunResult := do
  let retried := retryOnStuck && (← state).daemons.retryCommands.contains command
  give n command args (if retried then 2 else 1) (some fun _ => recoverStuck n)

/-- Whether arguments ask for a check of a program text. -/
def hasProgramText (args : List Json) : Bool :=
  args.any fun
    | .str s => s == "-c"
    | _ => false

/-- Call the checker itself, without a daemon. -/
def runDirect (n : Nat) (args : List Json) : Op RunResult := do
  let ws ← Op.workspace n
  let front ← look fun w => ws.command w .direct
  invoke n (front.map .str ++ args) (if hasProgramText args then "-c" else "check")

/-! ## Stopping -/

/-- Whether a failure says that there is no daemon. -/
def saysNotRunning (e : Fault) : Bool :=
  match e with
  | .failure (.toolFailure ended _) _ | .failure (.daemonStuck ended _) _ =>
    Text.contains (ended.stdout ++ "\n" ++ ended.stderr) "Daemon is not running"
  | _ => false

/-- One attempt to stop the daemon. -/
def stopAttempt (n : Nat) (argv : List Json) (number : Nat) : Op Bool := do
  match ← Op.attempt (invoke n argv "stop") with
  | .ok _ => return true
  | .error e =>
    if 1 < number && saysNotRunning e then
      let ws ← Op.workspace n
      log .info .adapter s!"Daemon for {ws.root.text} is not running"
      return true
    else throw e

/-- Whether there is no daemon to stop, if that can be told: none is said to be running, and
there is no status file. -/
def isAbsent (s : State) (id : Nat) : Except Fault Bool :=
  if s.started id then .ok false
  else do return !(← (s.handle id).statusFileExists s.world)

/-- Stop the daemon; false if that failed twice. -/
def stop (n : Nat) : Op Bool := do
  let id ← handle n
  let s ← state
  let root := (s.workspace n).root.text
  if ← look fun _ => isAbsent s id then
    log .debug .adapter ("No daemon to stop for " ++ root)
    return true
  match ← Op.attempt (argv n "stop" []) with
  | .error e =>
    if isFailure e then
      log .warning .adapter s!"Cannot stop daemon for {root}: {e.message}"
      return false
    else throw e
  | .ok argv =>
    let attempts : Op Bool := ExceptT.mk (Retry.bounded 2 isFailure
      (fun number => (stopAttempt n argv number).run) (between none 2 s.daemons.stopDelay))
    match ← Op.attempt attempts with
    | .error e =>
      if isFailure e then
        log .warning .adapter s!"Failed to stop daemon for {root}, giving up: {e.message}"
        return false
      else throw e
    | .ok stopped =>
      setStarted id false
      log .info .adapter ("Stopped daemon for " ++ root)
      return stopped

end Overseer.Daemon
