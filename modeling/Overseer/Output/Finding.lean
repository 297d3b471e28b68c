set_option autoImplicit false

/-! # Findings

One statement of the checker about a place in a file, as it stands in the checker's report.
Positions count from zero. -/

namespace Overseer

/-- One statement of the checker. -/
structure Finding where
  /-- The file as the checker names it. -/
  file : String
  line : Int
  column : Int
  endLine : Int
  endColumn : Int
  /-- The word that the checker uses for the severity. -/
  severity : String
  message : String
  /-- The error code. -/
  code : Option String := none
  /-- Where the statement is documented. -/
  link : Option String := none
  deriving DecidableEq, Repr

namespace Finding

/-- The place of a finding. -/
structure Place where
  file : String
  line : Int
  column : Int
  endLine : Int
  endColumn : Int
  deriving DecidableEq, Repr

/-- The place of a finding. -/
def place (f : Finding) : Place := ⟨f.file, f.line, f.column, f.endLine, f.endColumn⟩

/-- Whether a finding starts and ends at the same position. -/
def isCaret (f : Finding) : Bool := f.line == f.endLine && f.column == f.endColumn

/-- Whether a finding is a note. -/
def isNote (f : Finding) : Bool := f.severity == "note"

end Finding

end Overseer
