import Overseer.Diagnostic
import Overseer.Fault.Basic
import Overseer.Process.Outcome

set_option autoImplicit false

/-! # Results of operations on workspaces -/

namespace Overseer

/-- The result of one operation on one workspace. -/
structure CheckResult where
  /-- The key of the workspace. -/
  workspace : String
  ok : Bool
  error : Option Failure := none
  /-- The class of the fault behind the error. -/
  cause : Option FaultClass := none
  outcome : Option Outcome := none
  /-- The number of diagnostics found. -/
  diagnostics : Nat := 0
  /-- Whether there was nothing to do. -/
  skipped : Bool := false
  deriving DecidableEq, Repr

namespace CheckResult

/-- A result as hosts receive it. -/
def toJson (r : CheckResult) : Json :=
  .obj [
    ("workspace", .str r.workspace),
    ("ok", .bool r.ok),
    ("error", Diagnostic.optionalText (r.error.map Failure.summary)),
    ("error_type", Diagnostic.optionalText (r.error.map fun e => (Fault.failureClass e).name)),
    ("outcome", Diagnostic.optionalText (r.outcome.map Outcome.name)),
    ("diagnostics", .int r.diagnostics),
    ("skipped", .bool r.skipped)]

end CheckResult

/-- The results of an operation on all workspaces. -/
structure BatchReport where
  results : List CheckResult := []
  deriving DecidableEq, Repr

namespace BatchReport

/-- Whether all results are good. -/
def ok (b : BatchReport) : Bool := b.results.all (·.ok)

/-- The results that are not good. -/
def failures (b : BatchReport) : List CheckResult := b.results.filter fun r => !r.ok

/-- A report as hosts receive it. -/
def toJson (b : BatchReport) : Json :=
  .obj [("ok", .bool b.ok), ("results", .arr (b.results.map CheckResult.toJson))]

end BatchReport

/-- The result of one call of the checker. -/
structure RunResult where
  stdout : String
  outcome : Outcome
  ended : Ended
  deriving DecidableEq, Repr

end Overseer
