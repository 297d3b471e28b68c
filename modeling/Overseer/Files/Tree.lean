import Overseer.Assoc
import Overseer.Path

set_option autoImplicit false

/-! # A tree of files

The tree maps locations, lists of names from the root, to directories, files and symbolic
links. The root is always a directory. Names and paths may be too long for it, and some of its
places may be closed to the program. -/

namespace Overseer.Files

/-- A place in the tree: the names from the root. -/
abbrev Location := List String

/-- What stands at a place. -/
inductive Node where
  | directory
  | file (bytes : List UInt8)
  | link (target : String)
  deriving DecidableEq

/-- What a tree keeps the program from. -/
structure Bounds where
  /-- The greatest number of bytes in a name, if there is one. -/
  nameLimit : Option Nat := none
  /-- The greatest number of bytes in a path, if there is one. -/
  pathLimit : Option Nat := none
  /-- The directories in which no name may be looked up. -/
  unsearchable : List Location := []
  /-- The directories in which nothing may be made or removed, and the files that may not be
  written. -/
  unwritable : List Location := []
  /-- The files and directories that may not be read. -/
  unreadable : List Location := []

/-- A tree of files. -/
structure Tree where
  /-- What stands where, the root apart. -/
  nodes : Assoc Location Node := Assoc.empty
  /-- The places where a file may be executed. -/
  executables : List Location := []
  bounds : Bounds := {}

namespace Tree

/-- What stands at a place. -/
def at? (t : Tree) (l : Location) : Option Node :=
  if l.isEmpty then some .directory else t.nodes.get? l

/-- The places above a place, from the root downwards. -/
def above (l : Location) : List Location :=
  (List.range l.length).filterMap fun n => if n = 0 then none else some (l.take n)

/-- Make a place a directory unless something stands there. -/
def ensureDirectory (t : Tree) (l : Location) : Tree :=
  if (t.at? l).isSome then t else { t with nodes := t.nodes.insert l .directory }

/-- Put a node at a place, with directories above it. -/
def put (t : Tree) (l : Location) (n : Node) : Tree :=
  let t := (above l).foldl ensureDirectory t
  if l.isEmpty then t else { t with nodes := t.nodes.insert l n }

/-- Remove what stands at a place. -/
def remove (t : Tree) (l : Location) : Tree := { t with nodes := t.nodes.erase l }

/-- The place that an absolute path names when it holds no links. -/
def locationOf (s : String) : Location := (Path.ofString s).parts

/-- All directories, the root included. -/
def directories (t : Tree) : List Location :=
  [] :: t.nodes.entries.filterMap fun e => if e.2 = .directory then some e.1 else none

/-- All files with their bytes. -/
def fileEntries (t : Tree) : List (Location × List UInt8) :=
  t.nodes.entries.filterMap fun e =>
    match e.2 with
    | .file bytes => some (e.1, bytes)
    | _ => none

/-- The number of links. -/
def linkCount (t : Tree) : Nat :=
  (t.nodes.entries.filter fun e =>
    match e.2 with
    | .link _ => true
    | _ => false).length

end Tree

end Overseer.Files
