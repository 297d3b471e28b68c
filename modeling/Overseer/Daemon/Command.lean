import Overseer.Daemon.Handle
import Overseer.Workspace

set_option autoImplicit false

/-! # Command lines of the checker

The checker is an executable, found by its path or on the search path, or a module of the
active interpreter. The daemon is told its status file, the commands that leave a daemon
running also its log file, and the arguments of the checker follow behind `--`. -/

namespace Overseer

/-- Which of the two programs of the checker is called. -/
inductive Program where
  /-- The client of the daemon. -/
  | daemon
  /-- The checker itself. -/
  | direct
  deriving DecidableEq, Repr

namespace Program

/-- The module of an interpreter. -/
def moduleName : Program → String
  | daemon => "mypy.dmypy"
  | direct => "mypy"

/-- The setting with the executable. -/
def setting : Program → Setting
  | daemon => .dmypyExecutable
  | direct => .mypyExecutable

end Program

/-- The directories that are searched when the environment names none. -/
def defaultSearchPath : String := "/bin:/usr/bin"

/-- The first executable file of a name in the directories of the search path. -/
def World.findExecutable (w : World) (name : String) : Option String :=
  let searched := (w.lookupVariable "PATH").getD defaultSearchPath
  if searched.isEmpty then none
  else
    let directories := (Text.splitAtChar ':' searched.toList).map String.ofList
    let candidates := directories.map fun d =>
      if d.isEmpty then name
      else if d.toList.getLast? = some '/' then d ++ name
      else d ++ "/" ++ name
    candidates.find? fun c => Files.isExecutable w.files w.cwd c

namespace Workspace

/-- A failure to find the executable. -/
def notFound {α : Type} (location : String) (detail : String) : Except Fault α :=
  .error (.failure (.executableNotFound location detail) none)

/-- Whether an executable is given by a path and not by a name. -/
def looksLikePath (executable : String) : Bool :=
  Text.contains executable "/" || Text.contains executable "\\" ||
    (Text.dropFront? ['$', '\x7b'] executable.toList).isSome

/-- The executable that a setting names. -/
def executable (ws : Workspace) (w : World) (v : Json) : Except Fault String :=
  if !v.isGiven then notFound "<unset>" "no executable configured"
  else
    match v with
    | .str name =>
      if looksLikePath name then
        let path := w.expandPath ws.root name
        match w.pathExists path with
        | .ok true => .ok path.text
        | .ok false => notFound path.text ""
        | .error e => .error e
      else
        match w.findExecutable name with
        | some found => .ok found
        | none => notFound name "not found on PATH"
    | .arr items =>
      let slash := items.any fun
        | .str s => s == "/" || s == "\\"
        | _ => false
      .error (.misuse (.noMember .arr (if slash then "replace" else "startswith")))
    | .obj members =>
      let slash := members.any fun m => m.1 == "/" || m.1 == "\\"
      .error (.misuse (.noMember .obj (if slash then "replace" else "startswith")))
    | v => .error (.misuse (.notContainer v.kind))

/-- The words with which a command line of the checker begins. -/
def command (ws : Workspace) (w : World) (p : Program) : Except Fault (List String) := do
  if ws.settings.isGiven .useActiveInterpreter then
    match ← ws.interpreter w with
    | none =>
      throw (.failure (.environmentMissing
        "Active interpreter mode is enabled but no Python interpreter is selected" none) none)
    | some interpreter =>
      if ← w.pathExists (Path.ofString interpreter) then
        return [interpreter, "-m", p.moduleName]
      else notFound interpreter "active interpreter"
  else return [← ws.executable w (ws.settings.value p.setting)]

/-- Flags that make the report readable for machines. -/
def outputFlags : List String := [
  "--show-column-numbers", "--show-error-end", "--show-error-codes", "--show-absolute-path",
  "--no-error-summary", "--no-pretty", "--no-color-output"]

/-- The arguments of the checker; those from the settings are taken as they are. -/
def checkerArgs (ws : Workspace) (w : World) : Except Fault (List Json) := do
  let config ← ws.configFile w
  let interpreter ← ws.interpreter w
  let option (flag : String) : Option String → List Json
    | some v => [.str flag, .str v]
    | none => []
  let extra ← (ws.settings.value .extraArguments).items
  return option "--config-file" config ++ option "--python-executable" interpreter ++
    outputFlags.map .str ++ extra

/-- The arguments of a check of the whole workspace. -/
def runArgs (ws : Workspace) (w : World) : Except Fault (List Json) := do
  return (← ws.checkerArgs w) ++ (← ws.targets w).map .str

/-- Commands that leave a daemon running. -/
def startsDaemon (command : String) : Bool := ["start", "restart", "run"].contains command

/-- The command line of a daemon command. -/
def daemonArgv (ws : Workspace) (w : World) (h : Handle) (command : String)
    (args : List Json) : Except Fault (List Json) := do
  let front ← ws.command w .daemon
  let words := front ++ ["--status-file", h.statusFile.text, command] ++
    (if startsDaemon command then ["--log-file", h.logFile.text] else [])
  return words.map .str ++ (if args.isEmpty then [] else .str "--" :: args)

end Workspace

end Overseer
