import Overseer.Json.Loose
import Overseer.Settings.Basic
import Overseer.Settings.Expand

set_option autoImplicit false

/-! # Workspaces

A workspace is a root directory with settings. What a setting means is worked out when it is
used, in the world as it is then. -/

namespace Overseer

/-- A root directory with settings. -/
structure Workspace where
  /-- The resolved root. -/
  root : Path
  settings : Settings := {}

namespace Workspace

/-- The name under which a workspace is registered. -/
def key (ws : Workspace) : String := ws.root.text

/-- The name shown to people. -/
def name (ws : Workspace) : String := if ws.root.name.isEmpty then ws.root.text else ws.root.name

/-- A path setting, if it is given. -/
def path? (ws : Workspace) (w : World) (s : Setting) : Except Fault (Option Path) :=
  if ws.settings.isGiven s then (w.expandSetting ws.root (ws.settings.value s)).map some
  else .ok none

/-- The paths to check: the configured ones, or the whole root. -/
def targets (ws : Workspace) (w : World) : Except Fault (List String) := do
  if !ws.settings.isGiven .targets then return [ws.root.text]
  let items ← (ws.settings.value .targets).items
  items.mapM fun t => do return (← w.expandSetting ws.root t).text

/-- The configuration file of the checker. -/
def configFile (ws : Workspace) (w : World) : Except Fault (Option String) := do
  return (← ws.path? w .configFile).map Path.text

/-- The directory in which the checker runs. -/
def cwd (ws : Workspace) (w : World) : Except Fault String := do
  return ((← ws.path? w .cwd).map Path.text).getD ws.root.text

/-- The interpreter, if the active one is to be used and is known. -/
def interpreter (ws : Workspace) (w : World) : Except Fault (Option String) := do
  if ws.settings.isGiven .useActiveInterpreter then
    return (← ws.path? w .interpreter).map Path.text
  else return none

/-- The configured status file. -/
def statusFile (ws : Workspace) (w : World) : Except Fault (Option Path) :=
  ws.path? w .statusFile

/-- The text of an environment file; of a directory nothing is read. -/
def envFileText (w : World) (path : Path) : Except Fault String :=
  match w.isDirectory path with
  | .ok true => .ok ""
  | _ => w.readText path.text

/-- The names that have a value in the text of an environment file. -/
def envFileItems (w : World) (text : String) : List (String × String) :=
  (w.libraries.envValues w.lookupVariable text).entries.filterMap fun e =>
    e.2.map fun v => (e.1, v)

/-- The environment map of the settings as names and values. -/
def envItems (ws : Workspace) : Except Fault (List (String × String)) :=
  match ws.settings.value .env with
  | .obj members => .ok (members.map fun m => (m.1, m.2.display))
  | v => .error (.misuse (.notIterable v.kind))

/-- The names and values in the configured environment file. That there is none at its path is
noted. -/
def fileItems (ws : Workspace) : Act (List (String × String)) := do
  match ← Act.look fun w => ws.path? w .envFile with
  | none => return []
  | some path =>
    let w ← get
    if ← Act.look fun w => w.pathExists path then
      return envFileItems w (← Act.look fun w => envFileText w path)
    else
      Act.log .warning .settings ("Env file not found: " ++ path.text)
      return []

/-- The environment of the checker: that of the program, over it the environment file, over
that the configured map. -/
def environment (ws : Workspace) : Act (Assoc String String) := do
  let w ← get
  let fromFile ← ws.fileItems
  let items ← Act.look fun _ => ws.envItems
  return (w.environment.insertAll fromFile).insertAll items

/-- The workspace at a root, which is resolved. -/
def ofRoot (w : World) (root : Path) (settings : Settings) : Except Fault Workspace := do
  return ⟨← w.resolve root, settings⟩

end Workspace

end Overseer
