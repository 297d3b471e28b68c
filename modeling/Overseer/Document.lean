import Overseer.Diagnostic
import Overseer.World

set_option autoImplicit false

/-! # Documents

Diagnostics belong to documents: files, named by their resolved path, and fragments of a
virtual document such as the cells of a notebook. -/

namespace Overseer

/-- What diagnostics are filed under. -/
inductive DocumentKey where
  /-- A file, by its resolved path. -/
  | file (path : String)
  /-- One fragment of a virtual document. -/
  | fragment (document : String) (index : Int)
  deriving DecidableEq, Repr

namespace DocumentKey

/-- Whether a key names a file. -/
def isFile : DocumentKey → Bool
  | file _ => true
  | fragment _ _ => false

/-- Whether a key names a fragment of a document. -/
def isFragmentOf (document : String) : DocumentKey → Bool
  | file _ => false
  | fragment d _ => d == document

end DocumentKey

/-- The resolved path of a file as the checker names it. -/
def World.documentPath (w : World) (file : String) : Except Fault String := do
  return (← w.resolve (Path.ofString file)).text

/-- Diagnostics by file, files and diagnostics in the order of the report. -/
def World.diagnosticsByFile (w : World) (findings : List Finding) :
    Except Fault (Assoc String (List Diagnostic)) := do
  let filed ← findings.mapM fun f => do return (← w.documentPath f.file, Diagnostic.ofFinding f)
  return Assoc.group filed

end Overseer
