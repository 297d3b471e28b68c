import Overseer.Digest.Md5
import Overseer.World

set_option autoImplicit false

/-! # Daemons and their files

The daemon of a workspace is found through a status file and writes a log file. Both names
carry a digest of the root and the name of the supervising instance, so that instances do not
meet. -/

namespace Overseer

/-- The daemon of one workspace. -/
structure Handle where
  /-- The resolved root of the workspace. -/
  root : Path
  statusFile : Path
  logFile : Path
  /-- Whether a daemon may be running that this program started. -/
  started : Bool := false
  deriving DecidableEq

/-- The files of which instance, and where they are. -/
structure Instance where
  /-- The suffix of the files; the process number if it is missing or empty. -/
  id : Option String := none
  /-- The directory of the files. -/
  stateDir : Option Path := none

namespace Instance

/-- The number of the supervising process. -/
def processId : String := "4242"

/-- The directory of the files unless another one is given. -/
def defaultStateDir : Path := Path.ofString "/tmp/mypyd"

/-- The suffix of the files. -/
def suffix (i : Instance) : String :=
  match i.id with
  | some id => if id.isEmpty then processId else id
  | none => processId

/-- The directory of the files. -/
def directory (i : Instance) : Path := i.stateDir.getD defaultStateDir

end Instance

namespace Handle

/-- A short digest of a workspace root. -/
def rootDigest (root : Path) : String :=
  String.ofList ((Digest.md5 (Text.encode root.text.toList)).take 8)

/-- A file of the daemon of a workspace. -/
def daemonFile (i : Instance) (root : Path) (extension : String) : Path :=
  i.directory.child ("dmypy-" ++ rootDigest root ++ "-" ++ i.suffix ++ extension)

/-- The handle of a workspace, perhaps with a status file of its own. -/
def ofRoot (w : World) (i : Instance) (root : Path) (statusFile : Option Path) :
    Except Fault Handle := do
  let root ← w.resolve root
  return {
    root
    statusFile := statusFile.getD (daemonFile i root ".json")
    logFile := daemonFile i root ".log" }

/-- Make the directories of both files. -/
def ensureDirectories (h : Handle) : Act Unit := do
  let make (p : Path) := Act.makeDirectories p.parts.length p
  make h.statusFile.parent
  make h.logFile.parent

/-- Whether there is a status file, if that can be told. -/
def statusFileExists (h : Handle) (w : World) : Except Fault Bool := w.pathExists h.statusFile

/-- Whether there is known to be a status file. -/
def hasStatusFile (h : Handle) (w : World) : Bool :=
  match h.statusFileExists w with
  | .ok there => there
  | .error _ => false

/-- Remove the status file; false if there is none. -/
def removeStatusFile (h : Handle) : Act Bool := do
  let w ← get
  match Files.unlink w.files w.cwd h.statusFile.text with
  | .ok files =>
    set { w with files }
    Act.log .info .handle ("Removed status file " ++ h.statusFile.text)
    return true
  | .error .notFound => return false
  | .error refusal => throw (.files refusal h.statusFile.text)

end Handle

end Overseer
