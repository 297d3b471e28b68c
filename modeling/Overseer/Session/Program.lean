import Overseer.Process.Script
import Overseer.Session.State

set_option autoImplicit false

/-! # Operations that can be suspended

An operation is a tree of steps: it reads and writes the shared state, and it may wait for a
child process, for some time to pass, for a lock, or for the results of jobs on several
workspaces. Between two waits nothing else runs. An operation does not say who runs it and when
it goes on; the scheduler does. -/

namespace Overseer

/-- A job on one workspace, given by the number of its registration. -/
inductive Job where
  /-- Check the workspace. -/
  | check (registration : Nat)
  /-- Stop the daemon, then check. -/
  | restart (registration : Nat)
  /-- Stop the daemon. -/
  | stop (registration : Nat)
  deriving DecidableEq, Repr

/-- An operation with a result. -/
inductive Prog (α : Type) where
  /-- The result. -/
  | done (a : α)
  /-- Look at the state. -/
  | read (k : State → Prog α)
  /-- Change the state. -/
  | write (s : State) (k : Prog α)
  /-- Start a child process and wait for its end. -/
  | spawn (c : Call) (k : Except Fault Ended → Prog α)
  /-- Pause for some milliseconds. -/
  | sleep (ms : Int) (k : Prog α)
  /-- Wait for a lock. -/
  | lock (l : Nat) (k : Prog α)
  /-- Give a lock back. -/
  | unlock (l : Nat) (k : Prog α)
  /-- Start jobs and wait for all of them. -/
  | gather (jobs : List Job) (k : List (Except Fault CheckResult) → Prog α)

namespace Prog

variable {α β : Type}

/-- Go on with the result of an operation. -/
def bind : Prog α → (α → Prog β) → Prog β
  | done a, f => f a
  | read k, f => read fun s => (k s).bind f
  | write s k, f => write s (k.bind f)
  | spawn c k, f => spawn c fun e => (k e).bind f
  | sleep ms k, f => sleep ms (k.bind f)
  | lock l k, f => lock l (k.bind f)
  | unlock l k, f => unlock l (k.bind f)
  | gather jobs k, f => gather jobs fun rs => (k rs).bind f

instance : Monad Prog where
  pure := done
  bind := bind

@[simp] theorem bind_done (p : Prog α) : p.bind done = p := by
  induction p with
  | done a => rfl
  | read k ih => simp [bind, ih]
  | write s k ih => simp [bind, ih]
  | spawn c k ih => simp [bind, ih]
  | sleep ms k ih => simp [bind, ih]
  | lock l k ih => simp [bind, ih]
  | unlock l k ih => simp [bind, ih]
  | gather jobs k ih => simp [bind, ih]

theorem bind_assoc {γ : Type} (p : Prog α) (f : α → Prog β) (g : β → Prog γ) :
    (p.bind f).bind g = p.bind fun a => (f a).bind g := by
  induction p with
  | done a => rfl
  | read k ih => simp [bind, ih]
  | write s k ih => simp [bind, ih]
  | spawn c k ih => simp [bind, ih]
  | sleep ms k ih => simp [bind, ih]
  | lock l k ih => simp [bind, ih]
  | unlock l k ih => simp [bind, ih]
  | gather jobs k ih => simp [bind, ih]

instance : LawfulMonad Prog :=
  LawfulMonad.mk' Prog (fun p => bind_done p) (fun _ _ => rfl) fun p f g => bind_assoc p f g

end Prog

/-- An operation that may stop with a fault. -/
abbrev Op := ExceptT Fault Prog

namespace Op

variable {α : Type}

/-- The shared state. -/
def state : Op State := ExceptT.mk (.read fun s => .done (.ok s))

/-- Change the shared state. -/
def modify (f : State → State) : Op Unit :=
  ExceptT.mk (.read fun s => .write (f s) (.done (.ok ())))

/-- Do something in the world. -/
def act (a : Act α) : Op α := do
  let s ← state
  let (r, w) := a.exec s.world
  modify fun s => { s with world := w }
  match r with
  | .ok a => return a
  | .error e => throw e

/-- Look at the world. -/
def look (f : World → Except Fault α) : Op α := do
  match f (← state).world with
  | .ok a => return a
  | .error e => throw e

/-- Write a record to the log. -/
def log (level : LogLevel) (source : LogSource) (text : String) : Op Unit :=
  modify (·.record ⟨level, source, text⟩)

/-- Pause for some milliseconds; others may run meanwhile. -/
def sleep (ms : Int) : Op Unit := do
  modify (·.slept ms)
  ExceptT.mk (.sleep ms (.done (.ok ())))

/-- Start a child process and wait for its end. -/
def spawn (c : Call) : Op Ended := ExceptT.mk (.spawn c .done)

/-- Start jobs and wait for the results of all of them. -/
def gather (jobs : List Job) : Op (List (Except Fault CheckResult)) :=
  ExceptT.mk (.gather jobs fun rs => .done (.ok rs))

/-- The fault of an operation as a value. -/
def attempt (p : Op α) : Op (Except Fault α) := ExceptT.mk (p.run.bind fun r => .done (.ok r))

/-- Do something while holding a lock, which is given back whatever happens. -/
def withLock (l : Nat) (p : Op α) : Op α :=
  ExceptT.mk (.lock l (p.run.bind fun r => .unlock l (.done r)))

/-- A workspace as it is now, by the number of its registration. -/
def workspace (n : Nat) : Op Workspace := do return (← state).workspace n

/-- Whether a registration has been removed. -/
def isRemoved (n : Nat) : Op Bool := do return ((← state).registration n).removed

end Op

end Overseer
