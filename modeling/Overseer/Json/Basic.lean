import Overseer.Number.Binary64
import Overseer.Text.Quoted

set_option autoImplicit false

/-! # JSON values

Settings files, notebooks and reports are JSON. Whole numbers and numbers with a fraction or
an exponent are kept apart, and an object keeps its members in the order of their first
occurrence. A value has two texts: `display` for a value on its own, `literal` for one inside
a list or an object, which differ in the quotes around a string. -/

namespace Overseer

open Number (Binary64)

/-- A JSON value. -/
inductive Json where
  | null
  | bool (b : Bool)
  | int (n : Int)
  | float (x : Binary64)
  | str (s : String)
  | arr (items : List Json)
  | obj (members : List (String × Json))
  deriving Inhabited

namespace Json

/-- Enter a member: in place if the name is known, otherwise at the end. -/
def setMember (members : List (String × Json)) (name : String) (v : Json) :
    List (String × Json) :=
  if members.any (·.1 == name) then
    members.map fun m => if m.1 == name then (m.1, v) else m
  else members ++ [(name, v)]

/-- Members with a name that occurs again keep the first place and the last value. -/
def dedup (members : List (String × Json)) : List (String × Json) :=
  members.foldl (fun ms m => setMember ms m.1 m.2) []

/-- The member of an object with a given name. -/
def member? (v : Json) (name : String) : Option Json :=
  match v with
  | obj members => (members.find? (·.1 == name)).map Prod.snd
  | _ => none

/-- Whether a value counts as given: neither null, false, zero, nor empty. -/
def isGiven : Json → Bool
  | null => false
  | bool b => b
  | int n => n != 0
  | float x => !x.isZero
  | str s => !s.isEmpty
  | arr items => !items.isEmpty
  | obj members => !members.isEmpty

/-! ## The kinds of values -/

/-- The kinds of JSON values. -/
inductive Kind where
  | null | bool | int | float | str | arr | obj
  deriving DecidableEq, Repr

/-- The kind of a value. -/
def kind : Json → Kind
  | null => .null
  | bool _ => .bool
  | int _ => .int
  | float _ => .float
  | str _ => .str
  | arr _ => .arr
  | obj _ => .obj

/-- The name by which messages call a kind. -/
def Kind.name : Kind → String
  | null => "NoneType"
  | bool => "bool"
  | int => "int"
  | float => "float"
  | str => "str"
  | arr => "list"
  | obj => "dict"

/-! ## Texts of values -/

/-- The text of a truth value. -/
def boolText (b : Bool) : String := if b then "True" else "False"

mutual

/-- The text of a value inside a list or an object. -/
def literal : Json → String
  | null => "None"
  | bool b => boolText b
  | int n => toString n
  | float x => x.text
  | str s => Text.quoted s
  | arr items => "[" ++ ", ".intercalate (literals items) ++ "]"
  | obj members => "\x7b" ++ ", ".intercalate (memberLiterals members) ++ "\x7d"

/-- The texts of the items of a list. -/
def literals : List Json → List String
  | [] => []
  | v :: vs => literal v :: literals vs

/-- The texts of the members of an object. -/
def memberLiterals : List (String × Json) → List String
  | [] => []
  | m :: ms => (Text.quoted m.1 ++ ": " ++ literal m.2) :: memberLiterals ms

end

/-- The text of a value on its own. -/
def display : Json → String
  | str s => s
  | v => literal v

end Json

end Overseer
