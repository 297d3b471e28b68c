import Overseer.Process.Ended
import Overseer.World

set_option autoImplicit false

/-! # Child processes and how they behave

The program only sees a child process through the command line it starts and the bytes that
come back. A script lists how children behave; the first entry that fits a call is used up by
it, and a call that none fits ends at once with success. A held child goes on until somebody
lets it end. -/

namespace Overseer

/-- A child process to be started. -/
structure Call where
  argv : List String
  /-- The directory to start in; the current one if there is none. -/
  cwd : Option String := none
  /-- The environment; that of the program if there is none. -/
  environment : Option (Assoc String String) := none

namespace Call

/-- The subcommand: the second word behind the option for the status file. -/
def subcommand (c : Call) : String :=
  match c.argv.dropWhile (· ≠ "--status-file") with
  | _ :: _ :: command :: _ => command
  | [] => "direct"
  | _ => ""

end Call

/-- How a child behaves. -/
structure Behaviour where
  /-- The only subcommand that it fits. -/
  command : Option String := none
  /-- The only directory that it fits. -/
  cwd : Option String := none
  exitCode : Int := 0
  stdout : List UInt8 := []
  stderr : List UInt8 := []
  /-- The fault with which starting it fails. -/
  refusal : Option (FaultClass × String) := none
  /-- Files that it leaves behind. -/
  writes : List (String × List UInt8) := []
  /-- Files that it removes. -/
  deletes : List String := []
  /-- Whether it goes on until it is let go. -/
  held : Bool := false

namespace Behaviour

/-- Whether a behaviour fits a call. -/
def fits (b : Behaviour) (c : Call) : Bool :=
  (match b.command with
    | some command => command == c.subcommand
    | none => true) &&
  (match b.cwd with
    | some cwd => c.cwd == some cwd
    | none => true)

/-- Take the first entry of a script that fits a call. -/
def take (c : Call) : List Behaviour → Behaviour × List Behaviour
  | [] => ({}, [])
  | b :: rest =>
    if b.fits c then (b, rest)
    else
      let (found, rest) := take c rest
      (found, b :: rest)

/-- What the end of a child changes in the world. -/
def finish (b : Behaviour) (w : World) : World :=
  let files := b.writes.foldl
    (fun t e => t.put (Files.Tree.locationOf e.1) (.file e.2)) w.files
  let files := b.deletes.foldl (fun t p => t.remove (Files.Tree.locationOf p)) files
  { w with files }

/-- What the program sees of a child that has ended. -/
def ended (b : Behaviour) (c : Call) : Ended :=
  ⟨c.argv, some b.exitCode, Text.outputText b.stdout, Text.outputText b.stderr⟩

/-- The fault with which starting a child fails. -/
def fault? (b : Behaviour) : Option Fault := b.refusal.map fun r => .foreign r.1 r.2

end Behaviour

end Overseer
