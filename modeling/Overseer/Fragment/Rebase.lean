import Overseer.Fragment.LineMap
import Overseer.Output.Finding

set_option autoImplicit false

/-! # Moving findings from the buffer to the fragments

A finding about the buffer is moved to the fragment that its lines came from. It is dropped if
it starts or ends on a line without an origin, or starts in one fragment and ends in
another. -/

namespace Overseer

/-- A finding that belongs to a fragment. -/
structure Rebased where
  fragment : Int
  finding : Finding
  deriving DecidableEq, Repr

/-- Why a finding was dropped. -/
inductive Dropped where
  /-- A line has no origin; the line on which the finding starts. -/
  | unmapped (line : Int) (message : String)
  /-- The finding spans two fragments. -/
  | spanning (first last : Int) (message : String)
  deriving DecidableEq, Repr

/-- The text about a dropped finding. -/
def Dropped.text : Dropped → String
  | unmapped line message => s!"Dropping diagnostic on unmapped line {line}: {message}"
  | spanning first last message =>
    s!"Dropping diagnostic spanning fragments {first} and {last}: {message}"

namespace LineMap

/-- Move one finding. -/
def rebase (m : LineMap) (f : Finding) : Except Dropped Rebased :=
  match m.resolve (f.line + 1), m.resolve (f.endLine + 1) with
  | some start, some stop =>
    if start.fragment = stop.fragment then
      .ok ⟨start.fragment, { f with line := start.line - 1, endLine := stop.line - 1 }⟩
    else .error (.spanning start.fragment stop.fragment f.message)
  | _, _ => .error (.unmapped (f.line + 1) f.message)

/-- The findings that could be moved, in order. -/
def rebaseAll (m : LineMap) (fs : List Finding) : List Rebased :=
  fs.filterMap fun f => (m.rebase f).toOption

/-- The findings that were dropped, in order. -/
def dropped (m : LineMap) (fs : List Finding) : List Dropped :=
  fs.filterMap fun f =>
    match m.rebase f with
    | .ok _ => none
    | .error d => some d

end LineMap

/-- Moved findings by fragment, in order. -/
def Rebased.group (rs : List Rebased) : Assoc Int (List Finding) :=
  Assoc.group (rs.map fun r => (r.fragment, r.finding))

end Overseer
