import Overseer.World

set_option autoImplicit false

/-! # Changed paths

A changed path matters if it lies in the workspace, is not ignored, and can affect a check.
The configuration file of the checker always matters. The root may hold a file with further
patterns to ignore. -/

namespace Overseer.Watch

open Wildmatch (Rule)

/-- Patterns of paths that can affect a check. -/
def triggerPatterns : List String :=
  ["*.py", "*.pyi", "mypy.ini", ".mypy.ini", "setup.cfg", "pyproject.toml"]

/-- The lines of the list of paths that are always ignored. -/
def ignoredPatterns : List String := [
  "# Environments and caches",
  ".venv/", "venv/", "env/", "__pycache__/", ".mypy_cache/", ".dmypy.json", ".tox/", ".nox/",
  "node_modules/",
  "",
  "# Version control",
  ".git/", ".hg/", ".svn/"]

/-- The file with further patterns to ignore. -/
def ignoreFile : String := ".mypydignore"

/-- The lines of a list of patterns of paths that can affect a check; an empty list stands for the
usual ones. -/
def triggerLines (patterns : List String) : List String :=
  if patterns.isEmpty then triggerPatterns else patterns

/-- The rules for paths that can affect a check, as the built-in library reads them. -/
def triggerRules (patterns : List String) : Except Fault (List Rule) :=
  Wildmatch.readRules (triggerLines patterns)

/-- The paths that can affect a check. -/
def triggers (w : World) : Except Fault (String → Bool) := w.libraries.patterns (triggerLines [])

/-- The paths to ignore in a workspace. -/
def ignoreRules (w : World) (root : Path) : Except Fault (String → Bool) := do
  let file := root.child ignoreFile
  let own ← if ← w.pathExists file then (w.readText file.text).map Text.lines else pure []
  w.libraries.patterns (ignoredPatterns ++ own)

/-- The path of a changed file, seen from the root if it lies below it; nothing for the
configuration file, which always matters. -/
inductive Position where
  | configuration
  | inside (path : String)
  | outside
  deriving DecidableEq, Repr

/-- Where a changed path lies. -/
def position (w : World) (root : Path) (configFile : Option String) (path : String) :
    Except Fault Position := do
  let root ← w.resolve root
  let path := Path.ofString path
  let path ← w.resolve (if path.isAbsolute then path else root / path)
  let isConfig ← match configFile with
    | some c =>
      if c.isEmpty then pure false
      else (w.resolve (Path.ofString c)).map fun config => path = config
    | none => pure false
  if isConfig then return .configuration
  match path.relativeTo? root with
  | some p => return .inside p.text
  | none => return .outside

/-- Whether a changed path matters, with rules that are read when they are needed. -/
def isRelevantWith (w : World) (root : Path) (configFile : Option String) (path : String)
    (ignored triggers : Except Fault (String → Bool)) : Except Fault Bool := do
  match ← position w root configFile path with
  | .configuration => return true
  | .outside => return false
  | .inside path =>
    if (← ignored) path then return false
    return (← triggers) path

/-- Whether a changed path matters. -/
def isRelevant (w : World) (root : Path) (configFile : Option String) (path : String) :
    Except Fault Bool := do
  let resolved ← w.resolve root
  isRelevantWith w root configFile path (ignoreRules w resolved) (triggers w)

/-- The changed paths that matter. -/
def filterRelevant (w : World) (root : Path) (configFile : Option String)
    (paths : List String) : Except Fault (List Path) := do
  let ignored ← ignoreRules w root
  let triggers ← triggers w
  let kept ← paths.filterM fun p => isRelevantWith w root configFile p (.ok ignored) (.ok triggers)
  return kept.map Path.ofString

end Overseer.Watch
