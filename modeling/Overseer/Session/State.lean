import Overseer.Check.Result
import Overseer.Daemon.Command
import Overseer.Store.Basic

set_option autoImplicit false

/-! # The state that operations share

Registrations, daemon handles, collections and locks are numbered as they come into being. The
tables say which number is current for a workspace key; an operation that holds an older
number goes on using it. -/

namespace Overseer

/-- A workspace that is, or was, registered. -/
structure Registration where
  workspace : Workspace := ⟨Path.absolute [], {}⟩
  /-- Whether it has been removed. -/
  removed : Bool := false
  deriving Inhabited

/-- How daemons are run. -/
structure DaemonConfig where
  identity : Instance := {}
  /-- The pause before the second attempt to stop a daemon, in milliseconds. -/
  stopDelay : Int := 1000
  /-- The pause between the recovery of a stuck daemon and the retry. -/
  stuckDelay : Int := 500
  /-- The commands that are retried after a recovery. -/
  retryCommands : List String := ["run", "check"]

/-- A warning for the person in front of the screen. -/
structure Notice where
  summary : String
  detail : String
  deriving DecidableEq, Repr

/-- The state that operations share. -/
structure State where
  world : World := {}
  daemons : DaemonConfig := {}
  store : Store := {}
  /-- Whether the supervisor has been started. -/
  running : Bool := false
  /-- All registrations there have been, by number. -/
  registrations : List Registration := []
  /-- The number of the registration of a workspace. -/
  registry : Assoc String Nat := Assoc.empty
  /-- All daemon handles there have been, by number. -/
  handles : List Handle := []
  /-- The number of the handle of a workspace. -/
  handleOf : Assoc String Nat := Assoc.empty
  /-- The number of the lock of a workspace. -/
  lockOf : Assoc String Nat := Assoc.empty
  /-- The number of locks there have been. -/
  lockCount : Nat := 0
  /-- Whether somebody takes notices; otherwise they go to the log. -/
  takesNotices : Bool := true
  /-- The notices given so far. -/
  notices : List Notice := []
  /-- The pauses made so far, in milliseconds. -/
  sleeps : List Int := []
  /-- What listeners of the store were told so far. -/
  events : List StoreEvent := []

namespace State

/-- A registration by number. -/
def registration (s : State) (n : Nat) : Registration := s.registrations[n]?.getD {}

/-- Change a registration. -/
def setRegistration (s : State) (n : Nat) (f : Registration → Registration) : State :=
  { s with registrations := s.registrations.modify n f }

/-- A workspace by the number of its registration. -/
def workspace (s : State) (n : Nat) : Workspace := (s.registration n).workspace

/-- A handle by number. -/
def handle (s : State) (n : Nat) : Handle :=
  s.handles[n]?.getD ⟨Path.absolute [], Path.absolute [], Path.absolute [], false⟩

/-- Change a handle. -/
def setHandle (s : State) (n : Nat) (f : Handle → Handle) : State :=
  { s with handles := s.handles.modify n f }

/-- Whether a handle says that a daemon may be running. -/
def started (s : State) (n : Nat) : Bool := (s.handle n).started

/-- Write a record to the log. -/
def record (s : State) (r : LogRecord) : State := { s with world := s.world.record r }

/-- Note a pause. -/
def slept (s : State) (ms : Int) : State := { s with sleeps := s.sleeps ++ [ms] }

/-- The registered workspaces in order. -/
def registered (s : State) : List Nat := s.registry.values

/-- Take over what a change of the store led to. -/
def react (s : State) (store : Store) (r : Reaction) : State :=
  { s with store, world := s.world.react r, events := s.events ++ r.events }

end State

end Overseer
