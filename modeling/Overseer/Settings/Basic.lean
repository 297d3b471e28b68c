import Overseer.Json.Basic

set_option autoImplicit false

/-! # Settings

The settings of a workspace give each of thirteen names a value. Values are kept as they were
configured; whoever uses one decides what it means. -/

namespace Overseer

/-- The names of the settings. -/
inductive Setting where
  | dmypyExecutable | mypyExecutable | useActiveInterpreter | interpreter | targets | configFile
  | extraArguments | env | envFile | cwd | statusFile | enabled | debugLogging
  deriving DecidableEq, Repr

namespace Setting

/-- All settings. -/
def all : List Setting := [
  dmypyExecutable, mypyExecutable, useActiveInterpreter, interpreter, targets, configFile,
  extraArguments, env, envFile, cwd, statusFile, enabled, debugLogging]

/-- The name of a setting. -/
def name : Setting → String
  | dmypyExecutable => "dmypy_executable"
  | mypyExecutable => "mypy_executable"
  | useActiveInterpreter => "use_active_interpreter"
  | interpreter => "interpreter"
  | targets => "targets"
  | configFile => "config_file"
  | extraArguments => "extra_arguments"
  | env => "env"
  | envFile => "env_file"
  | cwd => "cwd"
  | statusFile => "status_file"
  | enabled => "enabled"
  | debugLogging => "debug_logging"

/-- The spelling of a setting in settings files. -/
def spelling : Setting → String
  | dmypyExecutable => "dmypyExecutable"
  | mypyExecutable => "mypyExecutable"
  | useActiveInterpreter => "useActiveInterpreter"
  | interpreter => "interpreter"
  | targets => "targets"
  | configFile => "configFile"
  | extraArguments => "extraArguments"
  | env => "env"
  | envFile => "envFile"
  | cwd => "cwd"
  | statusFile => "statusFile"
  | enabled => "enabled"
  | debugLogging => "debugLogging"

/-- The setting that a key names, in either spelling. -/
def ofKey? (key : String) : Option Setting :=
  all.find? fun s => s.spelling == key || s.name == key

/-- The value of a setting that nobody configured. -/
def default : Setting → Json
  | dmypyExecutable => .str "dmypy"
  | mypyExecutable => .str "mypy"
  | useActiveInterpreter => .bool false
  | targets => .arr []
  | extraArguments => .arr []
  | env => .obj []
  | enabled => .bool true
  | debugLogging => .bool false
  | _ => .null

theorem mem_all (s : Setting) : s ∈ all := by cases s <;> decide

end Setting

/-- The settings of a workspace. -/
structure Settings where
  /-- The value of a setting. -/
  value : Setting → Json := Setting.default

namespace Settings

/-- Give a setting a value. -/
def set (s : Settings) (name : Setting) (v : Json) : Settings :=
  ⟨fun n => if n = name then v else s.value n⟩

@[simp] theorem value_set (s : Settings) (name n : Setting) (v : Json) :
    (s.set name v).value n = if n = name then v else s.value n := rfl

/-- Whether a setting has a value that counts as given. -/
def isGiven (s : Settings) (name : Setting) : Bool := (s.value name).isGiven

end Settings

end Overseer
