import Overseer.Files.Tree

set_option autoImplicit false

/-! # Looking names up

A look-up goes through the names of a path one by one, follows symbolic links on the way, and
gives up behind the fortieth link. What it finds is a node, or a free place in an existing
directory. -/

namespace Overseer.Files

/-- Why an operation on files failed. -/
inductive Refusal where
  | notFound | notADirectory | isADirectory | alreadyExists | tooManyLinks
  /-- A name or the whole path is too long. -/
  | tooLong
  /-- A place on the way is closed to the program. -/
  | denied
  /-- The path has a null character, so it is no path at all. -/
  | nullByte
  deriving DecidableEq, Repr

/-- Whether a refusal means that nothing stands at a path. -/
def Refusal.isAbsence : Refusal → Bool
  | notFound | notADirectory | tooManyLinks | nullByte => true
  | _ => false

/-- What a look-up finds. -/
inductive Found where
  /-- A node at a place. -/
  | node (place : Location) (node : Node)
  /-- Nothing, at a place whose directory exists. -/
  | free (place : Location)
  deriving DecidableEq

/-- The greatest number of links that a look-up follows. -/
def maxLinks : Nat := 40

/-- The names of a path text; a slash at the end asks for a directory, and stands as an empty
name. -/
def names (s : String) : List String :=
  let parts := (Path.segments s).filter (· ≠ "")
  if s.toList.getLast? = some '/' then parts ++ [""] else parts

/-- Whether a path text starts at the root. -/
def fromRoot (s : String) : Bool := s.toList.head? = some '/'

/-- Whether a number of bytes is above a limit. -/
def exceeds (limit : Option Nat) (s : String) : Bool := limit.any (· < s.utf8ByteSize)

/-- Why a path text is refused before anything is looked up. -/
def Bounds.refusal? (b : Bounds) (s : String) : Option Refusal :=
  if s.toList.contains '\x00' then some .nullByte
  else if s.isEmpty then some .notFound
  else if exceeds b.pathLimit s then some .tooLong
  else none

/-- The directory that a name leads to from a directory, if it need not be looked up for that. -/
def Bounds.shortcut? (b : Bounds) (dir : Location) (name : String) :
    Except Refusal (Option Location) :=
  if name = "" then .ok (some dir)
  else if b.unsearchable.contains dir then .error .denied
  else if name = "." then .ok (some dir)
  else if name = ".." then .ok (some dir.dropLast)
  else if exceeds b.nameLimit name then .error .tooLong
  else .ok none

/-- Go through names inside a directory; `follow` treats a link from a directory onwards. -/
def walk (t : Tree) (followLast : Bool)
    (follow : Location → List String → Except Refusal Found) (dir : Location) :
    List String → Except Refusal Found
  | [] => .ok (.node dir .directory)
  | name :: rest =>
    match t.bounds.shortcut? dir name with
    | .error refusal => .error refusal
    | .ok (some dir) => walk t followLast follow dir rest
    | .ok none =>
      let place := dir ++ [name]
      match t.at? place with
      | none => if rest.isEmpty then .ok (.free place) else .error .notFound
      | some .directory => walk t followLast follow place rest
      | some (.file bytes) =>
        if rest.isEmpty then .ok (.node place (.file bytes)) else .error .notADirectory
      | some (.link target) =>
        if rest.isEmpty && !followLast then .ok (.node place (.link target))
        else follow (if fromRoot target then [] else dir) (names target ++ rest)

/-- Go through names and follow at most so many links. -/
def walkFollowing (t : Tree) (followLast : Bool) : Nat → Location → List String →
    Except Refusal Found
  | 0 => walk t followLast fun _ _ => .error .tooManyLinks
  | links + 1 => walk t followLast (walkFollowing t followLast links)

/-- Look a path text up, relative ones from the current directory. -/
def lookup (t : Tree) (cwd : String) (followLast : Bool) (s : String) : Except Refusal Found :=
  match t.bounds.refusal? s with
  | some refusal => .error refusal
  | none =>
    let all := if fromRoot s then names s else names cwd ++ names s
    walkFollowing t followLast maxLinks [] all

/-- The node behind a path text, links followed. -/
def stat (t : Tree) (cwd s : String) : Except Refusal (Location × Node) :=
  match lookup t cwd true s with
  | .ok (.node place node) => .ok (place, node)
  | .ok (.free _) => .error .notFound
  | .error e => .error e

/-- The node at a path text, a final link not followed. -/
def lstat (t : Tree) (cwd s : String) : Except Refusal (Location × Node) :=
  match lookup t cwd false s with
  | .ok (.node place node) => .ok (place, node)
  | .ok (.free _) => .error .notFound
  | .error e => .error e

/-- Whether something that passes a test stands at a path. That nothing is there is no refusal;
that it cannot be told is one. -/
def probe (t : Tree) (cwd s : String) (test : Node → Bool) : Except Refusal Bool :=
  match stat t cwd s with
  | .ok (_, node) => .ok (test node)
  | .error refusal => if refusal.isAbsence then .ok false else .error refusal

/-- Whether something stands at a path. -/
def pathExists (t : Tree) (cwd s : String) : Except Refusal Bool := probe t cwd s fun _ => true

/-- Whether a directory stands at a path. -/
def isDirectory (t : Tree) (cwd s : String) : Except Refusal Bool :=
  probe t cwd s fun node => node = .directory

/-- Whether a path names a file that may be executed. -/
def isExecutable (t : Tree) (cwd s : String) : Bool :=
  match stat t cwd s with
  | .ok (place, .file _) => t.executables.contains place
  | _ => false

/-- The bytes of a file. -/
def readBytes (t : Tree) (cwd s : String) : Except Refusal (List UInt8) :=
  match stat t cwd s with
  | .ok (place, node) =>
    if t.bounds.unreadable.contains place then .error .denied
    else
      match node with
      | .file bytes => .ok bytes
      | _ => .error .isADirectory
  | .error e => .error e

/-- Whether a place may not be filled or emptied: its directory is closed to the program. -/
def Tree.isFixed (t : Tree) (place : Location) : Bool :=
  !place.isEmpty && t.bounds.unwritable.contains place.dropLast

/-- Create one directory. -/
def makeDirectory (t : Tree) (cwd s : String) : Except Refusal Tree :=
  match lookup t cwd false s with
  | .ok (.free place) =>
    if t.isFixed place then .error .denied else .ok (t.put place .directory)
  | .ok (.node _ _) => .error .alreadyExists
  | .error e => .error e

/-- Remove a file or a link. -/
def unlink (t : Tree) (cwd s : String) : Except Refusal Tree :=
  match lstat t cwd s with
  | .ok (place, node) =>
    if t.isFixed place then .error .denied
    else if node = .directory then .error .isADirectory
    else .ok (t.remove place)
  | .error e => .error e

/-- Open a file for writing at its end, creating it if need be; gives its place. -/
def openForAppend (t : Tree) (cwd s : String) : Except Refusal (Tree × Location) :=
  match lookup t cwd true s with
  | .ok (.free place) =>
    if t.isFixed place then .error .denied else .ok (t.put place (.file []), place)
  | .ok (.node place (.file _)) =>
    if t.bounds.unwritable.contains place then .error .denied else .ok (t, place)
  | .ok (.node _ _) => .error .isADirectory
  | .error e => .error e

/-- Write bytes at the end of a file that is there; nothing else changes. -/
def append (t : Tree) (place : Location) (bytes : List UInt8) : Tree :=
  match t.at? place with
  | some (.file old) => { t with nodes := t.nodes.insert place (.file (old ++ bytes)) }
  | _ => t

end Overseer.Files
