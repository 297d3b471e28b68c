import Overseer.Json.Loose
import Overseer.Settings.Basic
import Overseer.World

set_option autoImplicit false

/-! # Layers of settings

Settings are laid over each other: the global file, the file of the workspace root, and what
the host gives. Inside a layer a later item wins over an earlier one. Items with an unknown
key are noted in the log. A file that is missing, that is not JSON or that holds no object is
an empty layer. -/

namespace Overseer.Settings

/-! ## The environment map -/

/-- Whether two values are one key of a map: numbers are compared by value. -/
def sameKey (a b : Json) : Bool :=
  let whole? : Json → Option Int := fun
    | .bool b => some (if b then 1 else 0)
    | .int n => some n
    | .float (.finite negative m q) =>
      let (n, d) := Number.Binary64.scaled m 1 2 q
      let size : Int := n / d
      if n % d = 0 then some (if negative then -size else size) else none
    | _ => none
  match whole? a, whole? b with
  | some m, some n => m == n
  | none, none =>
    match a, b with
    | .null, .null => true
    | .str s, .str t => s == t
    | .float x, .float y => x == y && x != .nan
    | _, _ => false
  | _, _ => false

/-- Whether a value can be the key of a map. -/
def isHashable : Json → Bool
  | .arr _ => false
  | .obj _ => false
  | _ => true

/-- The two items of an item in a list of pairs. -/
def pair (index : Nat) (v : Json) : Except Fault (Json × Json) :=
  match Json.items v with
  | .error _ => .error (.misuse (.notPair index))
  | .ok [key, value] =>
    if isHashable key then .ok (key, value) else .error (.misuse (.notHashable key.kind))
  | .ok items => .error (.pairLength index items.length)

/-- The pairs of a value that describes a map: an object, or a list of pairs. -/
def mapping : Json → Except Fault (List (Json × Json))
  | .obj members => .ok (members.map fun m => (.str m.1, m.2))
  | v => do
    let items ← Json.items v
    items.zipIdx.mapM fun (item, i) => pair i item

/-- Pairs with one key keep the first key and the last value. -/
def mergeKeys (ps : List (Json × Json)) : List (Json × Json) :=
  ps.foldl (fun seen p =>
    if seen.any fun q => sameKey q.1 p.1 then
      seen.map fun q => if sameKey q.1 p.1 then (q.1, p.2) else q
    else seen ++ [p]) []

/-- An environment map: names and values become texts. -/
def environment (v : Json) : Except Fault Json := do
  let ps ← mapping v
  return .obj (Json.dedup ((mergeKeys ps).map fun p => (p.1.display, .str p.2.display)))

/-! ## Items and layers -/

/-- The value that an item gives to a setting. -/
def itemValue (name : Setting) (v : Json) : Except Fault Json :=
  match name, v with
  | .targets, .str s => .ok (.arr [.str s])
  | .extraArguments, .str s => .ok (.arr [.str s])
  | .env, .null => .ok .null
  | .env, v => environment v
  | _, v => .ok v

/-- Lay one item over settings. -/
def overlayItem (s : Settings) (item : String × Json) : Act Settings := do
  match Setting.ofKey? item.1 with
  | none =>
    Act.log .warning .settings ("Ignoring unknown setting: " ++ item.1)
    return s
  | some name => return s.set name (← Act.look fun _ => itemValue name item.2)

/-- Lay items over settings. -/
def overlay (s : Settings) (items : List (String × Json)) : Act Settings :=
  items.foldlM overlayItem s

/-- Lay a value, which must be an object, over settings. -/
def overlayValue (s : Settings) (v : Json) : Act Settings :=
  match v with
  | .obj items => overlay s items
  | v => throw (.misuse (.noMember v.kind "items"))

/-! ## Files -/

/-- The items of a settings file. -/
def readItems (path : Path) : Act (List (String × Json)) := do
  let w ← get
  if !(← Act.look fun w => w.pathExists path) then return []
  match w.readText path.text >>= Json.parse with
  | .ok (.obj items) => return items
  | .ok _ =>
    Act.log .warning .settings s!"Settings file {path.text} does not contain an object"
    return []
  | .error e =>
    if e.cls.isA .json || e.cls.isA .os then
      Act.log .warning .settings s!"Failed to load settings from {path.text}: {e.message}"
      return []
    else throw e

/-- The file with the settings of a workspace root. -/
def rootFile : String := ".mypyd.json"

/-- The file with the settings for all workspaces, below the home directory. -/
def globalFile : String := ".config/mypyd/settings.json"

/-- The home directory: the value of `HOME` without the slashes that end it. -/
def homeText (w : World) : Option String :=
  (w.lookupVariable "HOME").map fun home =>
    String.ofList (Text.dropEndWhile (· == '/') home.toList)

/-- The default place of the global settings. -/
def defaultGlobalPath (w : World) : Except Fault Path :=
  match homeText w with
  | none => .error .noHome
  | some home =>
    let home := if home.isEmpty then "/" else home
    if home.toList.head? = some '~' then .error .noHome
    else .ok (Path.ofString home / Path.ofString globalFile)

/-- Load the settings of a workspace root from all layers. -/
def load (root : String) (globalPath : Option String) (overrides : Option Json) :
    Act Settings := do
  let path ← match globalPath with
    | some p => if p.isEmpty then Act.look defaultGlobalPath else pure (Path.ofString p)
    | none => Act.look defaultGlobalPath
  let s ← overlay {} (← readItems path)
  let s ← overlay s (← readItems ((Path.ofString root).child rootFile))
  match overrides with
  | some v => if v.isGiven then overlayValue s v else return s
  | none => return s

end Overseer.Settings
