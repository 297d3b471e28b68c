import Overseer.Libraries
import Overseer.Log
import Overseer.Text.Utf8

set_option autoImplicit false

/-! # The world around the program

Files, the current directory, the environment, the libraries and the log are one value. An action
reads and changes it and may stop with a fault; what it changed before that stays changed. -/

namespace Overseer

/-- Where log lines go besides the list of records. -/
inductive LogSink where
  | console
  | file (place : Files.Location)
  deriving DecidableEq, Repr

/-- The world around the program. -/
structure World where
  files : Files.Tree := {}
  /-- The current directory. -/
  cwd : String := "/cwd"
  environment : Assoc String String := Assoc.empty
  libraries : Libraries := .builtIn
  /-- Records below this level are dropped. -/
  logLevel : LogLevel := .info
  /-- The records written so far. -/
  log : List LogRecord := []
  /-- Where log lines are written to. -/
  sinks : List LogSink := []
  /-- What has been written to the standard output. -/
  stdout : String := ""
  /-- What has been written to the error stream. -/
  stderr : String := ""

/-- An action in the world. -/
abbrev Act := ExceptT Fault (StateM World)

namespace World

/-- Write to the standard output. -/
def print (w : World) (text : String) : World := { w with stdout := w.stdout ++ text }

/-- Write to the error stream. -/
def printError (w : World) (text : String) : World := { w with stderr := w.stderr ++ text }

/-- Write a line to one sink. -/
def writeTo (w : World) (line : String) : LogSink → World
  | .console => w.printError line
  | .file place =>
    { w with files := Files.append w.files place (Text.encode line.toList) }

/-- Write a record to the log. -/
def record (w : World) (r : LogRecord) : World :=
  if r.level.rank < w.logLevel.rank then w
  else w.sinks.foldl (fun w s => w.writeTo r.line s) { w with log := w.log ++ [r] }

/-- The value of a variable of the environment. -/
def lookupVariable (w : World) (name : String) : Option String := w.environment.get? name

/-- What an operation on the file at a path gives; a refusal is a fault. -/
def granted {α : Type} (path : String) : Except Files.Refusal α → Except Fault α
  | .ok a => .ok a
  | .error refusal => .error (.files refusal path)

/-- Whether something stands at a path, if that can be told. -/
def pathExists (w : World) (p : Path) : Except Fault Bool :=
  granted p.text (Files.pathExists w.files w.cwd p.text)

/-- Whether a directory stands at a path, if that can be told. -/
def isDirectory (w : World) (p : Path) : Except Fault Bool :=
  granted p.text (Files.isDirectory w.files w.cwd p.text)

/-- Resolve a path. -/
def resolve (w : World) (p : Path) : Except Fault Path :=
  match Files.resolve w.files w.cwd p.text with
  | .ok p => .ok p
  | .error (.loop l) => .error (.linkLoop l)
  | .error .nullByte => .error (.files .nullByte p.text)

/-- The bytes of a file whose path is given as text. -/
def readBytes (w : World) (path : String) : Except Fault (List UInt8) :=
  granted path (Files.readBytes w.files w.cwd path)

/-- The text of a file, which must be UTF-8; line ends become line feeds. -/
def readText (w : World) (path : String) : Except Fault String := do
  let bytes ← w.readBytes path
  match Text.fileText? bytes with
  | some text => .ok text
  | none => .error (.encoding bytes)

end World

namespace Act

/-- Write a record to the log. -/
def log (level : LogLevel) (source : LogSource) (text : String) : Act Unit :=
  modify (·.record ⟨level, source, text⟩)

/-- Do something that only looks at the world. -/
def look {α : Type} (f : World → Except Fault α) : Act α := do
  match f (← get) with
  | .ok a => pure a
  | .error e => throw e

/-- Run an action. -/
def exec {α : Type} (a : Act α) (w : World) : Except Fault α × World := a.run.run w

/-- Make one directory; gives the refusal, if any. A directory that is there will do. -/
def makeDirectory (p : Path) : Act (Option Files.Refusal) := do
  let w ← get
  match Files.makeDirectory w.files w.cwd p.text with
  | .ok files => set { w with files }; return none
  | .error .notFound => return some .notFound
  | .error refusal =>
    match Files.isDirectory w.files w.cwd p.text with
    | .ok there => return if there then none else some refusal
    | .error refusal => return some refusal

/-- Stop if a directory could not be made. -/
def granted (p : Path) : Option Files.Refusal → Act Unit
  | none => pure ()
  | some refusal => throw (.files refusal p.text)

/-- Make a directory and those above it; the bound is the number of names in the path. -/
def makeDirectories : Nat → Path → Act Unit
  | 0, p => do granted p (← makeDirectory p)
  | bound + 1, p => do
    match ← makeDirectory p with
    | some .notFound =>
      makeDirectories bound p.parent
      granted p (← makeDirectory p)
    | made => granted p made

end Act

end Overseer
