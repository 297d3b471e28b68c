import Overseer.Json.Reader
import Overseer.Process.Script

set_option autoImplicit false

/-! # Scenarios

A scenario is a JSON value that describes a world, with its files, its current directory and
its environment, and how the child processes in it behave. Everything in it may be missing. -/

namespace Overseer.Scenario

/-! ## Parts of a value -/

/-- A member of a value; null if it is missing. -/
def field (v : Json) (name : String) : Json := (v.member? name).getD .null

/-- The text of a value that is a text. -/
def text? : Json → Option String
  | .str s => some s
  | _ => none

/-- A member that is a text; empty if it is missing. -/
def text (v : Json) (name : String) : String := (text? (field v name)).getD ""

/-- A member that is a whole number; zero if it is missing. -/
def number (v : Json) (name : String) : Int :=
  match field v name with
  | .int n => n
  | _ => 0

/-- The items of a member that is a list. -/
def items (v : Json) (name : String) : List Json :=
  match field v name with
  | .arr l => l
  | _ => []

/-- A member that is a list of texts. -/
def texts (v : Json) (name : String) : List String := (items v name).filterMap text?

/-- The members of a member that is an object. -/
def members (v : Json) (name : String) : List (String × Json) :=
  match field v name with
  | .obj l => l
  | _ => []

/-- The members of an object that are texts. -/
def textMap : Json → Assoc String String
  | .obj l => Assoc.ofList (l.map fun e => (e.1, (text? e.2).getD ""))
  | _ => Assoc.empty

/-! ## Worlds -/

/-- Bytes written as pairs of hexadecimal digits. -/
def hexBytes : List Char → List UInt8
  | a :: b :: rest =>
    (((Json.hexValue? a).getD 0) * 16 + (Json.hexValue? b).getD 0).toUInt8 :: hexBytes rest
  | _ => []

/-- The bytes of a file or stream: a text, or an object with bytes. -/
def content : Json → List UInt8
  | .str s => Text.encode s.toList
  | v => hexBytes (text v "hex").toList

/-- The tree of files. -/
def tree (v : Json) : Files.Tree :=
  let place := Files.Tree.locationOf
  let t : Files.Tree := { executables := (texts v "exec").map place }
  let t := (texts v "dirs").foldl (fun t d => t.put (place d) .directory) t
  let t := (members v "files").foldl (fun t e => t.put (place e.1) (.file (content e.2))) t
  (members v "links").foldl (fun t e => t.put (place e.1) (.link ((text? e.2).getD ""))) t

/-- The environment unless another one is given. -/
def defaultEnvironment : Assoc String String :=
  Assoc.ofList [("HOME", "/home/u"), ("PATH", "/usr/bin")]

/-- The world that a scenario describes. -/
def world (v : Json) : World :=
  { files := tree (field v "fs")
    cwd := (text? (field v "cwd")).getD "/cwd"
    environment := ((v.member? "environ").map textMap).getD defaultEnvironment
    logLevel := ((text? (field v "log_level")).bind LogLevel.ofName?).getD .info }

/-! ## Children -/

/-- How one child behaves. -/
def behaviour (v : Json) : Behaviour :=
  let bytes (name : String) := ((v.member? name).map content).getD []
  { command := text? (field v "cmd")
    cwd := text? (field v "cwd")
    exitCode := number v "exit"
    stdout := bytes "stdout"
    stderr := bytes "stderr"
    refusal := (text? (field v "raise")).map fun cls =>
      (if cls == "OSError" then .os else .runtime, text v "message")
    writes := (members v "write").map fun e => (e.1, content e.2)
    deletes := texts v "delete"
    held := (field v "hold").isGiven }

/-- How the children of a scenario behave. -/
def script (v : Json) : List Behaviour := (items v "responses").map behaviour

end Overseer.Scenario
