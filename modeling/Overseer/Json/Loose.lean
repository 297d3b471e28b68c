import Overseer.Fault.Basic

set_option autoImplicit false

/-! # Values whose shape nobody has checked

Settings files and notebooks are used as they come. These functions take a value apart and
give a fault if it is not of the kind that the use asks for. -/

namespace Overseer.Json

/-- A member of a value that must be an object, or a default. -/
def getMember (v : Json) (name : String) (default : Json) : Except Fault Json :=
  match v with
  | obj _ => .ok ((v.member? name).getD default)
  | _ => .error (.misuse (.noMember v.kind "get"))

/-- The items of a value that must have some; those of an object are its names. -/
def items : Json → Except Fault (List Json)
  | arr items => .ok items
  | obj members => .ok (members.map fun m => .str m.1)
  | str s => .ok (s.toList.map fun c => .str (String.ofList [c]))
  | v => .error (.misuse (.notIterable v.kind))

/-- Join the strings of a list, the first of which has a given position. -/
def joinStrings : Nat → List Json → Except Fault String
  | _, [] => .ok ""
  | i, str s :: rest => do return s ++ (← joinStrings (i + 1) rest)
  | i, v :: _ => .error (.misuse (.joinedItem i v.kind))

/-- Read JSON, complaints becoming faults. -/
def parse (text : String) : Except Fault Json :=
  match read text with
  | .ok v => .ok v
  | .error (.malformed complaint) => .error (.json complaint)
  | .error (.digits count) => .error (.digits count)

end Overseer.Json
