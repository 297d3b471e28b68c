import Overseer.World

set_option autoImplicit false

/-! # Paths in settings

A path in the settings may speak of the workspace folder, of the home directory and of
variables of the environment, which are replaced in this order. What is not absolute then is
taken from the workspace root. Replaced text is not looked at again by the same step. -/

namespace Overseer

/-- The name of the workspace folder in settings. -/
def workspaceFolder : String := "$\x7bworkspaceFolder\x7d"

/-- A leading `~` becomes the home directory, if there is one. -/
def expandHome (home : Option String) (s : String) : String :=
  match s.toList with
  | '~' :: rest =>
    if rest.isEmpty || rest.head? = some '/' then
      match home with
      | none => s
      | some home =>
        let home := Text.dropEndWhile (· == '/') home.toList
        match home ++ rest with
        | [] => "/"
        | cs => String.ofList cs
    else s
  | _ => s

/-- Characters of a variable's name that stands without braces. -/
def isNameChar (c : Char) : Bool := c.isAlphanum || c == '_'

/-- The variable named behind a dollar sign, and the number of characters that name it. -/
def reference? (cs : List Char) : Option (List Char × Nat) :=
  match cs with
  | '\x7b' :: rest =>
    let name := rest.takeWhile (· != '\x7d')
    if name.length < rest.length then some (name, name.length + 2) else none
  | _ =>
    let name := cs.takeWhile isNameChar
    if name.isEmpty then none else some (name, name.length)

/-- Replace references to variables; `skip` characters belong to a reference already
treated. -/
def expandFrom (value : String → Option String) : Nat → List Char → List Char
  | _, [] => []
  | skip + 1, _ :: cs => expandFrom value skip cs
  | 0, c :: cs =>
    if c = '$' then
      match reference? cs with
      | none => c :: expandFrom value 0 cs
      | some (name, length) =>
        match value (String.ofList name) with
        | some v => v.toList ++ expandFrom value length cs
        | none => c :: cs.take length ++ expandFrom value length cs
    else c :: expandFrom value 0 cs

/-- Replace references to variables; unknown ones stay as they are. -/
def expandVariables (value : String → Option String) (s : String) : String :=
  String.ofList (expandFrom value 0 s.toList)

/-- Expand a path in the settings of a workspace with a given root. -/
def World.expandPath (w : World) (root : Path) (value : String) : Path :=
  let value := Text.replaceAll workspaceFolder root.text value
  let value := expandHome (w.lookupVariable "HOME") value
  let path := Path.ofString (expandVariables w.lookupVariable value)
  if path.isAbsolute then path else root / path

/-- Expand the value of a setting, which must be a text. -/
def World.expandSetting (w : World) (root : Path) : Json → Except Fault Path
  | .str s => .ok (w.expandPath root s)
  | v => .error (.misuse (.noMember v.kind "replace"))

end Overseer
