import Overseer.Settings.EnvFile
import Overseer.Wildmatch.Pattern

set_option autoImplicit false

/-! # Libraries

Two things are left to libraries: reading environment files and selecting paths by patterns. The
program takes what they give, whatever it is, so a library is part of the world in which the
program runs. The libraries that are built in follow the rules by which such files and patterns
are commonly read. -/

namespace Overseer

/-- What the program has libraries do. -/
structure Libraries where
  /-- The values of the names in the text of an environment file, some without one; the first
  argument looks names up in the environment outside. -/
  envValues : (String → Option String) → String → Assoc String (Option String)
  /-- Reads the lines of a list of patterns, which then selects paths. -/
  patterns : List String → Except Fault (String → Bool)

/-- The libraries that are built in. -/
def Libraries.builtIn : Libraries where
  envValues := EnvFile.values
  patterns lines := do
    let rules ← Wildmatch.readRules lines
    return rules

end Overseer
