import Overseer.Text.Blank

set_option autoImplicit false

/-! # Paths

A path is an anchor and a list of names. Repeated slashes and `.` vanish when a path is read;
`..` stays, because what it means depends on links. Exactly two slashes at the start form an
anchor of their own. -/

namespace Overseer

/-- Where a path starts. -/
inductive Anchor where
  | relative | root | doubleRoot
  deriving DecidableEq, Repr

/-- A path: its anchor and its names. -/
structure Path where
  anchor : Anchor
  parts : List String
  deriving DecidableEq, Repr

namespace Path

/-- The anchor that stands at the start of a text. -/
def anchorOf : List Char → Anchor
  | '/' :: '/' :: '/' :: _ => .root
  | '/' :: '/' :: _ => .doubleRoot
  | '/' :: _ => .root
  | _ => .relative

/-- The pieces of a text between slashes. -/
def segments (s : String) : List String := (Text.splitAtChar '/' s.toList).map String.ofList

/-- Read a path. -/
def ofString (s : String) : Path :=
  ⟨anchorOf s.toList, (segments s).filter fun p => p ≠ "" && p ≠ "."⟩

/-- The text of an anchor. -/
def anchorText : Anchor → String
  | .relative => ""
  | .root => "/"
  | .doubleRoot => "//"

/-- The text of a path; the empty path is `.`. -/
def text (p : Path) : String :=
  if p.anchor = .relative && p.parts.isEmpty then "."
  else anchorText p.anchor ++ "/".intercalate p.parts

/-- Whether a path starts at the root. -/
def isAbsolute (p : Path) : Bool := p.anchor != .relative

/-- A path below another one; an absolute path replaces it. -/
def join (p q : Path) : Path :=
  if q.isAbsolute then q else ⟨p.anchor, p.parts ++ q.parts⟩

instance : Div Path := ⟨join⟩

/-- A path with one more name read from a text. -/
def child (p : Path) (name : String) : Path := p / ofString name

/-- The path without its last name. -/
def parent (p : Path) : Path := ⟨p.anchor, p.parts.dropLast⟩

/-- The last name of a path, or nothing for an anchor. -/
def name (p : Path) : String := p.parts.getLast?.getD ""

/-- An absolute path with given names. -/
def absolute (parts : List String) : Path := ⟨.root, parts⟩

/-- A path seen from one that contains it. -/
def relativeTo? (p base : Path) : Option Path :=
  if p.anchor = base.anchor && base.parts.isPrefixOf p.parts then
    some ⟨.relative, p.parts.drop base.parts.length⟩
  else none

end Path

end Overseer
