import Overseer.Fragment.Basic
import Overseer.Json.Loose
import Overseer.Text.Lower
import Overseer.World

set_option autoImplicit false

/-! # Notebooks

A notebook is a JSON document with a list of cells. Its language is that of the kernel, or
else of the language information, or else the default. The parts of a cell are kept as they
stand in the file; a code cell whose text is no string is refused when it is checked. -/

namespace Overseer

/-- A cell as it stands in a notebook. -/
structure Cell where
  index : Int
  text : Json
  language : Json
  kind : Json

namespace Notebook

open Json (getMember items joinStrings)

/-- The language of notebooks that name none. -/
def defaultLanguage : String := "python"

/-- The language of the code cells. -/
def language (notebook : Json) : Except Fault String := do
  let metadata ← getMember notebook "metadata" (.obj [])
  let kernel ← getMember (← getMember metadata "kernelspec" (.obj [])) "language" .null
  let named ← if kernel.isGiven then pure kernel
    else getMember (← getMember metadata "language_info" (.obj [])) "name" .null
  if named.isGiven then
    match named with
    | .str s => return Text.lower s
    | v => throw (.misuse (.noMember v.kind "lower"))
  else return Text.lower defaultLanguage

/-- The text of a cell: a value, or a list of strings to be joined. -/
def cellText : Json → Except Fault Json
  | .arr items => do return .str (← joinStrings 0 items)
  | v => .ok (if v.isGiven then v else .str "")

/-- One cell. -/
def cell (language : String) (index : Nat) (v : Json) : Except Fault Cell := do
  let kind ← getMember v "cell_type" (.str "code")
  let text ← cellText (← getMember v "source" .null)
  let isCode := match kind with
    | .str "code" => true
    | _ => false
  return ⟨index, text, if isCode then .str language else kind, kind⟩

/-- The cells of a notebook in the order of display. -/
def cells (notebook : Json) : Except Fault (List Cell) := do
  let language ← language notebook
  let values ← items (← getMember notebook "cells" (.arr []))
  values.zipIdx.mapM fun (v, i) => cell language i v

/-- The cells of a notebook file. -/
def readCells (w : World) (path : String) : Except Fault (List Cell) := do
  cells (← Json.parse (← w.readText path))

end Notebook

namespace Cell

/-- Whether a cell is code in a language. -/
def isTarget (c : Cell) (language : String) : Bool :=
  match c.kind, c.language with
  | .str kind, .str l => kind == "code" && l == language
  | _, _ => false

/-- A code cell as a fragment. -/
def toFragment (language : String) (c : Cell) : Except Fault Fragment :=
  match c.text with
  | .str text => .ok { index := c.index, text, language }
  | v => .error (.misuse (.noMember v.kind "split"))

/-- The fragments of the cells that are code in a language. -/
def targets (cells : List Cell) (language : String) : Except Fault (List Fragment) :=
  (cells.filter (·.isTarget language)).mapM (toFragment language)

end Cell

end Overseer
