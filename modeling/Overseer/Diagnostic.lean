import Overseer.Json.Basic
import Overseer.Output.Finding

set_option autoImplicit false

/-! # Diagnostics

A finding that has been attributed to a document. -/

namespace Overseer

/-- How serious a diagnostic is. -/
inductive Severity where
  | error | warning | information | hint
  deriving DecidableEq, Repr

namespace Severity

/-- The name of a severity. -/
def name : Severity → String
  | error => "error"
  | warning => "warning"
  | information => "information"
  | hint => "hint"

/-- The severity of a word in the checker's report; unknown words inform. -/
def ofWord : String → Severity
  | "error" => error
  | "warning" => warning
  | _ => information

end Severity

/-- A range of positions that count from zero, without its end. -/
structure Range where
  startLine : Int
  startColumn : Int
  endLine : Int
  endColumn : Int
  deriving DecidableEq, Repr

/-- A finding attributed to a document. -/
structure Diagnostic where
  range : Range
  message : String
  severity : Severity
  code : Option String := none
  link : Option String := none
  deriving DecidableEq, Repr

namespace Diagnostic

/-- The tool that all diagnostics come from. -/
def source : String := "mypy"

/-- The diagnostic of a finding. -/
def ofFinding (f : Finding) : Diagnostic :=
  { range := ⟨f.line, f.column, f.endLine, f.endColumn⟩
    message := f.message
    severity := Severity.ofWord f.severity
    code := f.code
    link := f.link }

/-- A text that may be missing, as JSON. -/
def optionalText : Option String → Json
  | some s => .str s
  | none => .null

/-- A diagnostic as hosts receive it. -/
def toJson (d : Diagnostic) : Json :=
  .obj [
    ("range", .arr [.int d.range.startLine, .int d.range.startColumn, .int d.range.endLine,
      .int d.range.endColumn]),
    ("message", .str d.message),
    ("severity", .str d.severity.name),
    ("source", .str source),
    ("code", optionalText d.code),
    ("link", optionalText d.link)]

end Diagnostic

end Overseer
