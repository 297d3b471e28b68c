import Overseer.Files.Lookup

set_option autoImplicit false

/-! # Resolving paths

A path is resolved by replacing every symbolic link on the way; names that do not exist are
kept, and `..` removes the last resolved name. A link met again while it is being replaced is
a loop: what has been resolved is then kept with the rest as written. The result is made
absolute, and a result that still runs into too many links is refused. A name that cannot be
looked up is kept as if it did not exist, but one with a null character is no name. -/

namespace Overseer.Files

/-- A path under way: whether it starts at the root, and its names. -/
structure Spelled where
  rooted : Bool
  names : List String
  deriving DecidableEq

namespace Spelled

/-- The text of a path under way. -/
def text (p : Spelled) : String :=
  (if p.rooted then "/" else "") ++ "/".intercalate p.names

/-- One name further. -/
def child (p : Spelled) (name : String) : Spelled := { p with names := p.names ++ [name] }

/-- One name back; above the start of a relative path `..` accumulates. -/
def up (p : Spelled) : Spelled :=
  match p.names.getLast? with
  | none => if p.rooted then p else { p with names := [".."] }
  | some last => { p with names := if last = ".." then p.names ++ [".."] else p.names.dropLast }

/-- The path with a rest as written behind it; a rest that starts at the root replaces it. -/
def append (p : Spelled) (rest : List String) : Spelled :=
  match rest with
  | "" :: _ :: _ => ⟨true, rest⟩
  | _ => { p with names := p.names ++ rest }

end Spelled

/-- What is known of the links met so far: their target once it is resolved. -/
abbrev Met := Assoc Spelled (Option Spelled)

/-- The result of resolving a part: the path, whether no loop was met, the links met. -/
structure Resolving where
  path : Spelled
  complete : Bool
  met : Met

/-- A path whose links cannot all be replaced. -/
structure LinkLoop where
  /-- The path as far as it was resolved. -/
  path : String
  deriving DecidableEq, Repr

/-- Why a path cannot be resolved. -/
inductive Unresolved where
  | loop (l : LinkLoop)
  /-- A name has a null character. -/
  | nullByte
  deriving DecidableEq, Repr

/-- Go through the names of a path; `follow` resolves the target of a link. -/
def resolveNames (t : Tree) (cwd : String)
    (follow : Spelled → String → Met → Except Unresolved Resolving) (path : Spelled) (met : Met) :
    List String → Except Unresolved Resolving
  | [] => .ok ⟨path, true, met⟩
  | name :: rest =>
    if name = "" || name = "." then resolveNames t cwd follow path met rest
    else if name = ".." then resolveNames t cwd follow path.up met rest
    else
      let next := path.child name
      match lstat t cwd next.text with
      | .ok (_, .link target) =>
        match met.get? next with
        | some (some resolved) => resolveNames t cwd follow resolved met rest
        | some none => .ok ⟨next.append rest, false, met⟩
        | none =>
          match follow path target (met.insert next none) with
          | .error e => .error e
          | .ok r =>
            if r.complete then
              resolveNames t cwd follow r.path (r.met.insert next (some r.path)) rest
            else .ok ⟨r.path.append rest, false, r.met⟩
      | .error .nullByte => .error .nullByte
      | _ => resolveNames t cwd follow next met rest

/-- Resolve a path text seen from a path, through a bounded nesting of links. -/
def resolveFrom (t : Tree) (cwd : String) :
    Nat → Spelled → String → Met → Except Unresolved Resolving
  | 0, path, s, met => .ok ⟨path.append (Path.segments s), false, met⟩
  | depth + 1, path, s, met =>
    let start := if fromRoot s then ⟨true, []⟩ else path
    resolveNames t cwd (resolveFrom t cwd depth) start met (Path.segments s)

/-- The names of a path from the root, with `..` removing the name before it. -/
def collapse (names : List String) : List String :=
  names.foldl (fun kept name =>
    if name = "" || name = "." then kept
    else if name = ".." then kept.dropLast
    else kept ++ [name]) []

/-- Make a path under way absolute. -/
def absoluteNames (cwd : String) (p : Spelled) : List String :=
  collapse (if p.rooted then p.names else Path.segments cwd ++ p.names)

/-- Resolve a path text. -/
def resolve (t : Tree) (cwd s : String) : Except Unresolved Path :=
  match resolveFrom t cwd (2 * t.linkCount + 2) ⟨false, []⟩ s Assoc.empty with
  | .error e => .error e
  | .ok r =>
    let result := Path.absolute (absoluteNames cwd r.path)
    match stat t cwd result.text with
    | .error .tooManyLinks => .error (.loop ⟨result.text⟩)
    -- behind a loop the rest of the path has not been looked at
    | .error .nullByte => .error .nullByte
    | _ => .ok result

/-- The absolute form of a path text, links left alone; its anchor stays as written. -/
def absolute (cwd s : String) : Path :=
  ⟨if fromRoot s then Path.anchorOf s.toList else .root,
    absoluteNames cwd ⟨fromRoot s, Path.segments s⟩⟩

end Overseer.Files
