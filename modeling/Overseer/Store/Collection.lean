import Overseer.Document

set_option autoImplicit false

/-! # Collections of diagnostics

The collection of a workspace files diagnostics under documents. An empty list of diagnostics
is never filed: it removes the entry. Results of whole checks replace the entries of all files
and leave fragments alone; results of fragment checks replace the fragments of one document.
Every change is described by a delta. A collection that has been disposed of stays empty. -/

namespace Overseer

/-- The keys that a change touched. -/
structure Delta where
  /-- Keys that had no diagnostics before. -/
  added : List DocumentKey := []
  /-- Keys that have no diagnostics any more. -/
  removed : List DocumentKey := []
  /-- Keys with different diagnostics. -/
  changed : List DocumentKey := []
  deriving DecidableEq, Repr

namespace Delta

/-- Whether nothing changed. -/
def isEmpty (d : Delta) : Bool := d.added.isEmpty && d.removed.isEmpty && d.changed.isEmpty

end Delta

/-- Entries of a collection. -/
abbrev Entries := Assoc DocumentKey (List Diagnostic)

namespace Entries

/-- File diagnostics under a key, or remove the key if there are none. -/
def file (m : Entries) (key : DocumentKey) (diagnostics : List Diagnostic) : Entries :=
  if diagnostics.isEmpty then m.erase key else m.insert key diagnostics

/-- The difference between two states of the entries at some keys. -/
def delta (before after : Entries) (keys : List DocumentKey) : Delta :=
  { added := keys.filter fun k => (before.get? k).isNone && (after.get? k).isSome
    removed := keys.filter fun k => (before.get? k).isSome && (after.get? k).isNone
    changed := keys.filter fun k =>
      (before.get? k).isSome && (after.get? k).isSome && before.get? k ≠ after.get? k }

end Entries

/-- The diagnostics of one workspace. -/
structure Collection where
  workspace : String
  entries : Entries := Assoc.empty
  disposed : Bool := false

namespace Collection

/-- The diagnostics of a document. -/
def get (c : Collection) (key : DocumentKey) : List Diagnostic := (c.entries.get? key).getD []

/-- The documents with diagnostics. -/
def keys (c : Collection) : List DocumentKey := c.entries.keys

/-- The number of diagnostics. -/
def total (c : Collection) : Nat := c.entries.values.flatten.length

/-- Remove some keys, then file diagnostics under others. -/
def exchange (m : Entries) (remove : List DocumentKey)
    (install : Assoc DocumentKey (List Diagnostic)) : Entries :=
  install.entries.foldl (fun m e => Entries.file m e.1 e.2) (remove.foldl Assoc.erase m)

/-- Remove some keys and file diagnostics under others, unless the collection is disposed of. -/
def apply (c : Collection) (remove : List DocumentKey)
    (install : Assoc DocumentKey (List Diagnostic)) : Collection × Delta :=
  if c.disposed then (c, {})
  else
    let touched := remove ++ install.keys.filter fun k => !remove.contains k
    let after := exchange c.entries remove install
    ({ c with entries := after }, Entries.delta c.entries after touched)

/-- The files with diagnostics. -/
def fileKeys (c : Collection) : List DocumentKey := c.keys.filter DocumentKey.isFile

/-- The fragments of a document with diagnostics. -/
def fragmentKeys (c : Collection) (document : String) : List DocumentKey :=
  c.keys.filter (DocumentKey.isFragmentOf document)

/-- Replace the diagnostics of one document. -/
def replace (c : Collection) (key : DocumentKey) (diagnostics : List Diagnostic) :
    Collection × Delta :=
  c.apply [key] (Assoc.ofList [(key, diagnostics)])

/-- Replace the diagnostics of all files. -/
def replaceFiles (c : Collection) (files : Assoc String (List Diagnostic)) :
    Collection × Delta :=
  c.apply c.fileKeys (Assoc.ofList (files.entries.map fun e => (.file e.1, e.2)))

/-- Replace the diagnostics of all fragments of a document. -/
def replaceFragments (c : Collection) (document : String)
    (fragments : Assoc Int (List Diagnostic)) : Collection × Delta :=
  c.apply (c.fragmentKeys document)
    (Assoc.ofList (fragments.entries.map fun e => (.fragment document e.1, e.2)))

/-- What to clear. -/
inductive Scope where
  /-- All files. -/
  | files
  /-- A file if it has diagnostics, otherwise the fragments of the document of that name. -/
  | document (name : String)
  /-- One fragment. -/
  | fragment (document : String) (index : Int)
  deriving DecidableEq, Repr

/-- The keys in a scope. -/
def scopeKeys (c : Collection) : Scope → List DocumentKey
  | .files => c.fileKeys
  | .document name =>
    if c.entries.contains (.file name) then [.file name] else c.fragmentKeys name
  | .fragment document index => [.fragment document index]

/-- Clear a scope. -/
def clear (c : Collection) (scope : Scope) : Collection × Delta :=
  c.apply (c.scopeKeys scope) Assoc.empty

/-- Drop everything for good. -/
def dispose (c : Collection) : Collection × Delta :=
  if c.disposed then (c, {})
  else ({ c with entries := Assoc.empty, disposed := true }, { removed := c.keys })

end Collection

end Overseer
