import Overseer.Check.Run

set_option autoImplicit false

/-! # Running operations side by side

Operations run one at a time, each until it ends or has to wait. What can go on stands in a
queue and is taken from its front. A lock is given to those who wait for it in the order in
which they came, and goes directly from its holder to the first of them. Jobs that were
started together are noted one by one as they end, and whoever started them goes on behind the
last note. An operation that pauses lies asleep until it is woken; how much time that takes is
not said. -/

namespace Overseer

/-- What a finished operation was, with its result. -/
inductive Finished (ρ : Type) where
  /-- An operation that the host asked for in some step. -/
  | host (step : Nat) (result : Except Fault ρ)
  /-- A job of a batch. -/
  | job (batch index : Nat) (result : Except Fault CheckResult)

/-- An operation under way. -/
abbrev Task (ρ : Type) := Prog (Finished ρ)

/-- What stands in the queue. -/
inductive Ready (ρ : Type) where
  /-- An operation that can go on. -/
  | task (t : Task ρ)
  /-- A note that a job of a batch has ended. -/
  | jobEnded (batch : Nat)

/-- A lock, with those who wait for it. -/
structure Lock (ρ : Type) where
  held : Bool := false
  waiting : List (Task ρ) := []

/-- A child process that has not ended. -/
structure HeldCall (ρ : Type) where
  call : Call
  behaviour : Behaviour
  resume : Except Fault Ended → Task ρ

/-- Jobs that were started together. -/
structure Batch (ρ : Type) where
  results : List (Option (Except Fault CheckResult))
  /-- The number of ends that have been noted. -/
  noted : Nat := 0
  resume : List (Except Fault CheckResult) → Task ρ

/-- Operations under way, with the state that they share. -/
structure Session (ρ : Type) where
  state : State := {}
  /-- How the next child processes behave. -/
  script : List Behaviour := []
  /-- The child processes started so far. -/
  calls : List Call := []
  ready : List (Ready ρ) := []
  locks : Assoc Nat (Lock ρ) := Assoc.empty
  /-- The child processes that have not ended, by number. -/
  held : Assoc Nat (HeldCall ρ) := Assoc.empty
  /-- The number of pauses so far. -/
  pauses : Nat := 0
  /-- The operations that pause, by the number of the pause. -/
  asleep : Assoc Nat (Task ρ) := Assoc.empty
  batches : List (Batch ρ) := []
  /-- The operations of the host that have ended, by step. -/
  finished : List (Nat × Except Fault ρ) := []

namespace Session

variable {ρ : Type}

/-- A lock by number. -/
def lock (s : Session ρ) (l : Nat) : Lock ρ := (s.locks.get? l).getD {}

/-- Change a lock. -/
def setLock (s : Session ρ) (l : Nat) (lock : Lock ρ) : Session ρ :=
  { s with locks := s.locks.insert l lock }

/-- Put something at the end of the queue. -/
def enqueue (s : Session ρ) (r : Ready ρ) : Session ρ := { s with ready := s.ready ++ [r] }

/-- Note the end of an operation. -/
def finish (s : Session ρ) : Finished ρ → Session ρ
  | .host step result => { s with finished := s.finished ++ [(step, result)] }
  | .job batch index result =>
    enqueue { s with
      batches := s.batches.modify batch fun b =>
        { b with results := b.results.set index (some result) } } (.jobEnded batch)

/-- Let an operation pause. -/
def lieDown (s : Session ρ) (t : Task ρ) : Session ρ :=
  { s with pauses := s.pauses + 1, asleep := s.asleep.insert s.pauses t }

/-- Let an operation wait for a lock that is held. -/
def await (s : Session ρ) (l : Nat) (t : Task ρ) : Session ρ :=
  let lock := s.lock l
  s.setLock l { lock with waiting := lock.waiting ++ [t] }

/-- Take a lock back: the first who waits for it gets it. -/
def free (s : Session ρ) (l : Nat) : Session ρ :=
  match (s.lock l).waiting with
  | [] => s.setLock l {}
  | t :: rest => (s.setLock l ⟨true, rest⟩).enqueue (.task t)

/-- The operation of a job of a batch. -/
def jobTask (batch index : Nat) (job : Job) : Task ρ :=
  job.operation.run.bind fun r => .done (.job batch index r)

/-- Start the jobs of a batch. -/
def startBatch (s : Session ρ) (jobs : List Job)
    (resume : List (Except Fault CheckResult) → Task ρ) : Session ρ :=
  let batch := s.batches.length
  let s := { s with batches := s.batches ++ [⟨jobs.map fun _ => none, 0, resume⟩] }
  jobs.zipIdx.foldl (fun s (job, index) => s.enqueue (.task (jobTask batch index job))) s

/-- Run an operation until it ends or has to wait. -/
def run : Task ρ → Session ρ → Session ρ
  | .done f, s => s.finish f
  | .read k, s => run (k s.state) s
  | .write state k, s => run k { s with state }
  | .spawn call k, s =>
    let (behaviour, script) := Behaviour.take call s.script
    let number := s.calls.length
    let s := { s with script, calls := s.calls ++ [call] }
    match behaviour.fault? with
    | some fault => run (k (.error fault)) s
    | none =>
      if behaviour.held then { s with held := s.held.insert number ⟨call, behaviour, k⟩ }
      else
        run (k (.ok (behaviour.ended call)))
          { s with state := { s.state with world := behaviour.finish s.state.world } }
  | .sleep _ k, s => s.lieDown k
  | .lock l k, s =>
    if (s.lock l).held then s.await l k else run k (s.setLock l ⟨true, []⟩)
  | .unlock l k, s => run k (s.free l)
  | .gather jobs k, s => if jobs.isEmpty then run (k []) s else s.startBatch jobs k

/-- Note that a job of a batch has ended; behind the last note the batch is resumed. -/
def noteJob (s : Session ρ) (batch : Nat) : Session ρ :=
  match s.batches[batch]? with
  | none => s
  | some b =>
    let s := { s with batches := s.batches.set batch { b with noted := b.noted + 1 } }
    if b.noted + 1 = b.results.length then
      s.enqueue (.task (b.resume (b.results.filterMap id)))
    else s

/-- Take what stands at the front of the queue. -/
def takeReady (s : Session ρ) : Ready ρ → Session ρ
  | .task t => run t s
  | .jobEnded batch => s.noteJob batch

/-- Wake an operation that pauses: it goes on at once. -/
def wake (s : Session ρ) (pause : Nat) : Session ρ :=
  match s.asleep.get? pause with
  | none => s
  | some t => run t { s with asleep := s.asleep.erase pause }

/-- Wake an operation or take from the queue at most so many times. This host does not wait:
whoever pauses is woken before anything else is taken. -/
def drainWithin : Nat → Session ρ → Session ρ
  | 0, s => s
  | bound + 1, s =>
    match s.asleep.keys, s.ready with
    | pause :: _, _ => drainWithin bound (s.wake pause)
    | [], [] => s
    | [], r :: rest => drainWithin bound (takeReady { s with ready := rest } r)

/-- The number of operations that wait for something. -/
def waitingCount (s : Session ρ) : Nat :=
  s.held.size + s.asleep.size + (s.locks.values.flatMap fun l => l.waiting).length +
    (s.batches.flatMap fun b => b.results.drop b.noted).length

/-- Run everything that can go on. Each operation is taken from the queue when it starts, when
it gets its lock and when its jobs have ended, it pauses once or twice at most, and each job is
noted once, so the bound is never reached. -/
def drain (s : Session ρ) : Session ρ :=
  drainWithin (8 * (s.ready.length + s.waitingCount + s.state.registry.size + 1)) s

/-! ## What the host does -/

/-- Start an operation that the host asks for in some step. -/
def submit (s : Session ρ) (step : Nat) (op : Op ρ) : Session ρ :=
  (s.enqueue (.task (op.run.bind fun r => .done (.host step r)))).drain

/-- Let a child process end. -/
def release (s : Session ρ) (call : Nat) : Session ρ :=
  match s.held.get? call with
  | none => s
  | some h =>
    let s := { s with
      held := s.held.erase call
      state := { s.state with world := h.behaviour.finish s.state.world } }
    (s.enqueue (.task (h.resume (.ok (h.behaviour.ended h.call))))).drain

/-- The result of a step, once it has ended. -/
def result? (s : Session ρ) (step : Nat) : Option (Except Fault ρ) :=
  (s.finished.find? fun f => f.1 = step).map Prod.snd

/-- Whether a check of a workspace is under way. -/
def isChecking (s : Session ρ) (key : String) : Bool :=
  match s.state.lockOf.get? key with
  | some l => (s.lock l).held
  | none => false

end Session

end Overseer
