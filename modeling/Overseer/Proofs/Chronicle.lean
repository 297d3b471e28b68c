import Overseer.Proofs.History

set_option autoImplicit false

/-! # Sessions that are written down

A chronicle is a session in which everything that happens is written down. It goes on by moves:
the host asks for something, somebody says how the next child processes behave, the world
changes, a child process ends, the time of a pause is over, or the scheduler takes what stands at
the front of its queue. Nothing is said of how long a pause takes: whatever else can happen may
happen before it is over. A chronicle does what the session does (`session_run`, `session_wake`,
`session_takeReady`); what a host does with a session is one move and then as many takes and
awakenings as the scheduler makes (`session_submit`, `session_release`). -/

namespace Overseer

/-! ## Whose task it is -/

section Owner

variable {α ρ : Type}

/-- Whose result it is. -/
def Finished.who : Finished ρ → TaskId
  | host step _ => .host step
  | job batch index _ => .job batch index

/-- The reply that a result is for the one who asked. -/
def Finished.reply : Finished Reply → Except Fault Reply
  | host _ r => r
  | job _ _ r => r.map .checked

/-- All ends that a task can come to are ends of the same operation. -/
def Prog.By (i : TaskId) : Prog (Finished ρ) → Prop
  | done f => f.who = i
  | read k => ∀ s, (k s).By i
  | write _ k => k.By i
  | spawn _ k => ∀ e, (k e).By i
  | sleep _ k => k.By i
  | lock _ k => k.By i
  | unlock _ k => k.By i
  | gather _ k => ∀ rs, (k rs).By i

/-- Whose task it is, read off one of the ends that it can come to. -/
def Prog.owner : Prog (Finished ρ) → TaskId
  | done f => f.who
  | read k => (k {}).owner
  | write _ k => k.owner
  | spawn _ k => (k (.error (.unknownWorkspace ""))).owner
  | sleep _ k => k.owner
  | lock _ k => k.owner
  | unlock _ k => k.owner
  | gather _ k => (k []).owner

theorem Prog.By.owner {i : TaskId} {t : Prog (Finished ρ)} (h : t.By i) : t.owner = i := by
  induction t with
  | done f => exact h
  | read k ih => exact ih _ (h _)
  | write s k ih => exact ih h
  | spawn c k ih => exact ih _ (h _)
  | sleep ms k ih => exact ih h
  | lock l k ih => exact ih h
  | unlock l k ih => exact ih h
  | gather jobs k ih => exact ih _ (h _)

theorem Prog.by_bind {i : TaskId} (p : Prog α) {f : α → Prog (Finished ρ)}
    (h : ∀ a, (f a).By i) : (p.bind f).By i := by
  induction p with
  | done a => exact h a
  | read k ih => exact fun s => ih s
  | write s k ih => exact ih
  | spawn c k ih => exact fun e => ih e
  | sleep ms k ih => exact ih
  | lock l k ih => exact ih
  | unlock l k ih => exact ih
  | gather jobs k ih => exact fun rs => ih rs

end Owner

/-- The task of a request. -/
def Request.task (q : Request) (step : Nat) : Task Reply :=
  q.operation.run.bind fun r => .done (.host step r)

/-- A session, with what has happened in it. -/
structure Chronicle where
  session : Session Reply
  history : History := []
  /-- The number of requests so far. -/
  asked : Nat := 0

namespace Chronicle

/-! ## Writing down -/

/-- Write down what somebody does now. -/
def note (c : Chronicle) (i : TaskId) (what : Happening) : Chronicle :=
  { c with history := ⟨i, what, c.session.state⟩ :: c.history }

/-- Change the session. -/
def onSession (c : Chronicle) (f : Session Reply → Session Reply) : Chronicle :=
  { c with session := f c.session }

/-- A new task. -/
def begin (c : Chronicle) (i : TaskId) (q : Request) (t : Task Reply) : Chronicle :=
  (c.note i (.asked q)).onSession (·.enqueue (.task t))

/-- A child process is started. -/
def spawned (c : Chronicle) (i : TaskId) (call : Call) : Chronicle :=
  (c.note i (.spawned call)).onSession fun s => { s with
    script := (Behaviour.take call s.script).2
    calls := s.calls ++ [call] }

/-- A child process has come back at once. -/
def answered (c : Chronicle) (i : TaskId) (e : Except Fault Ended) : Chronicle :=
  (c.note i (.returned e)).note i .resumed

/-- A task pauses. -/
def lieDown (c : Chronicle) (i : TaskId) (ms : Int) (t : Task Reply) : Chronicle :=
  (c.note i (.slept ms)).onSession (·.lieDown t)

/-- A lock is asked for that is held. -/
def await (c : Chronicle) (i : TaskId) (l : Nat) (t : Task Reply) : Chronicle :=
  (c.note i (.reached l)).onSession (·.await l t)

/-- A lock is asked for that is free. -/
def enter (c : Chronicle) (i : TaskId) (l : Nat) : Chronicle :=
  ((((c.note i (.reached l)).onSession (·.setLock l ⟨true, []⟩)).note i (.entered l)).note i
    .resumed)

/-- A lock is given back, and given to the first who waits for it. -/
def leave (c : Chronicle) (i : TaskId) (l : Nat) : Chronicle :=
  match (c.session.lock l).waiting with
  | [] => (c.note i (.left l)).onSession (·.free l)
  | t :: _ => ((c.note i (.left l)).note t.owner (.entered l)).onSession (·.free l)

/-- Jobs are started. -/
def startBatch (c : Chronicle) (i : TaskId) (jobs : List Job)
    (resume : List (Except Fault CheckResult) → Task Reply) : Chronicle :=
  let batch := c.session.batches.length
  let c := (c.note i (.gathered jobs)).onSession fun s =>
    { s with batches := s.batches ++ [⟨jobs.map fun _ => none, 0, resume⟩] }
  jobs.zipIdx.foldl (fun c (job, index) =>
    c.begin (.job batch index) (.job job) (Session.jobTask batch index job)) c

/-- Run a task until it ends or has to wait. -/
def run (i : TaskId) : Task Reply → Chronicle → Chronicle
  | .done f, c => (c.note i (.ended f.reply)).onSession (·.finish f)
  | .read k, c => run i (k c.session.state) c
  | .write state k, c => run i k (c.onSession fun s => { s with state })
  | .spawn call k, c =>
    let behaviour := (Behaviour.take call c.session.script).1
    let number := c.session.calls.length
    let c := c.spawned i call
    match behaviour.fault? with
    | some fault => run i (k (.error fault)) (c.answered i (.error fault))
    | none =>
      if behaviour.held then
        c.onSession fun s => { s with held := s.held.insert number ⟨call, behaviour, k⟩ }
      else
        run i (k (.ok (behaviour.ended call)))
          ((c.onSession fun s => { s with
            state := { s.state with world := behaviour.finish s.state.world } }).answered i
              (.ok (behaviour.ended call)))
  | .sleep ms k, c => c.lieDown i ms k
  | .lock l k, c =>
    if (c.session.lock l).held then c.await i l k else run i k (c.enter i l)
  | .unlock l k, c => run i k (c.leave i l)
  | .gather jobs k, c =>
    if jobs.isEmpty then run i (k []) ((c.note i (.gathered jobs)).note i .resumed)
    else c.startBatch i jobs k

/-- Take what stands at the front of the queue. -/
def takeReady (c : Chronicle) : Ready Reply → Chronicle
  | .task t => (c.note t.owner .resumed).run t.owner t
  | .jobEnded batch => c.onSession (·.noteJob batch)

/-- Wake a task that pauses. -/
def wake (c : Chronicle) (pause : Nat) : Chronicle :=
  match c.session.asleep.get? pause with
  | none => c
  | some t =>
    ((c.onSession fun s => { s with asleep := s.asleep.erase pause }).note t.owner .resumed).run
      t.owner t

/-! ## Moves -/

/-- What moves a session on. -/
inductive Move where
  /-- The host asks for something. -/
  | request (q : Request)
  /-- How child processes to come behave. -/
  | respond (bs : List Behaviour)
  /-- The world is changed by others. -/
  | world (w : World)
  /-- A child process ends. -/
  | release (call : Nat)
  /-- The time of a pause is over. -/
  | wake (pause : Nat)
  /-- The scheduler takes what stands at the front of its queue. -/
  | take

/-- A request that names a registration which does not exist cannot be made. -/
def step (c : Chronicle) : Move → Chronicle
  | .request q =>
    if q.isKnown c.session.state then
      { c.begin (.host c.asked) q (q.task c.asked) with asked := c.asked + 1 }
    else c
  | .respond bs => c.onSession fun s => { s with script := s.script ++ bs }
  | .world w => c.onSession fun s => { s with state := { s.state with world := w } }
  | .release call =>
    match c.session.held.get? call with
    | none => c
    | some h =>
      let answer := .ok (h.behaviour.ended h.call)
      let c := c.onSession fun s => { s with
        held := s.held.erase call
        state := { s.state with world := h.behaviour.finish s.state.world } }
      (c.note (h.resume answer).owner (.returned answer)).onSession
        (·.enqueue (.task (h.resume answer)))
  | .wake pause => c.wake pause
  | .take =>
    match c.session.ready with
    | [] => c
    | r :: rest => (c.onSession fun s => { s with ready := rest }).takeReady r

/-- What there is before anything has happened. -/
structure Setup where
  world : World := {}
  daemons : DaemonConfig := {}
  listeners : List Listener := []
  takesNotices : Bool := true

/-- The first state. -/
def Setup.state (setup : Setup) : State :=
  { world := setup.world
    daemons := setup.daemons
    store := { listeners := setup.listeners }
    takesNotices := setup.takesNotices }

/-- The chronicle of a session that goes on by given moves. -/
def after (setup : Setup) (moves : List Move) : Chronicle :=
  moves.foldl step ⟨{ state := setup.state }, [], 0⟩

/-- A setup with one directory and the two programs, to try things out. -/
def Setup.small : Setup :=
  let place := Files.Tree.locationOf
  let programs := ["/usr/bin/dmypy", "/usr/bin/mypy"].map place
  let files := programs.foldl (fun t p => t.put p (.file []))
    (Files.Tree.put { executables := programs } (place "/w") .directory)
  { world := { files, environment := Assoc.ofList [("PATH", "/usr/bin")] } }

/-- Whether something can be said of the last moment and of all that went before. -/
def atLast (c : Chronicle) (p : Moment → History → Bool) : Bool :=
  match c.history with
  | [] => false
  | m :: h => p m h

theorem exists_of_atLast {c : Chronicle} {p : Moment → History → Bool} (hc : c.atLast p = true) :
    ∃ m h, m :: h = c.history ∧ p m h = true := by
  unfold atLast at hc
  split at hc
  · exact absurd hc (by simp)
  · next m h hpast => exact ⟨m, h, hpast.symm, hc⟩

theorem eq_ok_of_toOption {ε α : Type} {x : Except ε α} {a : α} (h : x.toOption = some a) :
    x = .ok a := by
  cases x with
  | error e => exact absurd h (by simp [Except.toOption])
  | ok b => exact congrArg _ (Option.some.inj h)

/-! ## The session of a chronicle -/

variable (c : Chronicle)

@[simp] theorem session_note (i : TaskId) (what : Happening) :
    (c.note i what).session = c.session := rfl

theorem session_leave (i : TaskId) (l : Nat) : (c.leave i l).session = c.session.free l := by
  rw [leave]
  split <;> rfl

theorem session_startBatch (i : TaskId) (jobs : List Job)
    (resume : List (Except Fault CheckResult) → Task Reply) :
    (c.startBatch i jobs resume).session = c.session.startBatch jobs resume := by
  have hfold : ∀ (batch : Nat) (js : List (Job × Nat)) (c : Chronicle),
      (js.foldl (fun c (job, index) =>
        c.begin (.job batch index) (.job job) (Session.jobTask batch index job)) c).session =
      js.foldl (fun s (job, index) =>
        s.enqueue (.task (Session.jobTask batch index job))) c.session := by
    intro batch js
    induction js with
    | nil => intro c; rfl
    | cons j js ih => intro c; exact ih _
  exact hfold _ _ _

/-- Writing down what happens does not disturb it. -/
theorem session_run (i : TaskId) (t : Task Reply) :
    (c.run i t).session = c.session.run t := by
  induction t generalizing c with
  | done f => rfl
  | read k ih => exact ih c.session.state c
  | write s k ih => exact ih _
  | spawn call k ih =>
    simp only [run, Session.run]
    cases (Behaviour.take call c.session.script).1.fault? with
    | some fault => exact ih _ _
    | none =>
      simp only
      split
      · rfl
      · exact ih _ _
  | sleep ms k => rfl
  | lock l k ih =>
    simp only [run, Session.run]
    split
    · rfl
    · exact ih _
  | unlock l k ih =>
    rw [run, ih, session_leave, Session.run]
  | gather jobs k ih =>
    simp only [run, Session.run]
    split
    · exact ih _ _
    · exact session_startBatch c i jobs k

theorem session_takeReady (r : Ready Reply) :
    (c.takeReady r).session = c.session.takeReady r := by
  cases r with
  | task t => exact session_run (c.note t.owner .resumed) t.owner t
  | jobEnded batch => rfl

theorem session_wake (pause : Nat) : (c.wake pause).session = c.session.wake pause := by
  rw [wake, Session.wake]
  cases c.session.asleep.get? pause with
  | none => rfl
  | some t => exact session_run _ t.owner t

/-! ## What a host does -/

/-- Whether a move is one that the scheduler makes by itself. -/
def Move.IsSchedule : Move → Prop
  | wake _ | take => True
  | request _ | respond _ | world _ | release _ => False

/-- Taking from the queue and waking those who pause is done by moves of the scheduler. -/
theorem session_drainWithin (bound : Nat) : ∃ moves : List Move, (∀ m ∈ moves, m.IsSchedule) ∧
    (moves.foldl step c).session = c.session.drainWithin bound := by
  induction bound generalizing c with
  | zero => exact ⟨[], by simp, rfl⟩
  | succ bound ih =>
    have hmore : ∀ m : Move, m.IsSchedule → ∃ moves : List Move, (∀ m ∈ moves, m.IsSchedule) ∧
        (moves.foldl step c).session = (c.step m).session.drainWithin bound := by
      intro m hm
      obtain ⟨moves, hmoves, hsession⟩ := ih (c.step m)
      exact ⟨m :: moves, List.forall_mem_cons.2 ⟨hm, hmoves⟩, hsession⟩
    rw [Session.drainWithin]
    split
    · next pause _ _ =>
      rw [← session_wake]
      exact hmore (.wake pause) trivial
    · exact ⟨[], by simp, rfl⟩
    · next r rest _ hready =>
      have htake : (c.step .take).session =
          Session.takeReady { c.session with ready := rest } r := by
        rw [step, hready]
        exact session_takeReady _ r
      rw [← htake]
      exact hmore .take trivial

theorem session_drain : ∃ moves : List Move, (∀ m ∈ moves, m.IsSchedule) ∧
    (moves.foldl step c).session = c.session.drain := session_drainWithin c _

/-- What a host asks for is done by a request and moves of the scheduler. -/
theorem session_submit (q : Request) (hq : q.isKnown c.session.state = true) :
    ∃ moves : List Move, (∀ m ∈ moves, m.IsSchedule) ∧
      ((.request q :: moves).foldl step c).session = c.session.submit c.asked q.operation := by
  obtain ⟨moves, hmoves, hsession⟩ := session_drain (c.step (.request q))
  refine ⟨moves, hmoves, hsession.trans ?_⟩
  rw [step, if_pos hq]
  rfl

/-- A child process that the host lets end ends by a release and moves of the scheduler. -/
theorem session_release (call : Nat) : ∃ moves : List Move, (∀ m ∈ moves, m.IsSchedule) ∧
    ((.release call :: moves).foldl step c).session = c.session.release call := by
  obtain ⟨moves, hmoves, hsession⟩ := session_drain (c.step (.release call))
  rw [Session.release]
  rw [step] at hsession
  cases hcall : c.session.held.get? call with
  | none => exact ⟨[], by simp, by simp [step, hcall]⟩
  | some h =>
    refine ⟨moves, hmoves, ?_⟩
    rw [List.foldl_cons, step]
    rw [hcall] at hsession ⊢
    exact hsession

/-! ## What is written down stays -/

/-- A chronicle goes on: what has been written down stays, and the host has asked for nothing
more. -/
structure Continues (c c' : Chronicle) : Prop where
  past : c.history <:+ c'.history
  asked : c'.asked = c.asked

namespace Continues

variable {c} {c' c'' : Chronicle}

theorem refl (c : Chronicle) : c.Continues c := ⟨List.suffix_refl _, rfl⟩

theorem trans (h : c.Continues c') (h' : c'.Continues c'') : c.Continues c'' :=
  ⟨h.past.trans h'.past, h'.asked.trans h.asked⟩

theorem onSession (h : c.Continues c') (f : Session Reply → Session Reply) :
    c.Continues (c'.onSession f) := ⟨h.past, h.asked⟩

theorem note (h : c.Continues c') (i : TaskId) (what : Happening) :
    c.Continues (c'.note i what) := ⟨h.past.trans (List.suffix_cons _ _), h.asked⟩

theorem leave (h : c.Continues c') (i : TaskId) (l : Nat) : c.Continues (c'.leave i l) := by
  rw [Chronicle.leave]
  split
  · exact (h.note i _).onSession _
  · exact ((h.note i _).note _ _).onSession _

theorem startBatch (h : c.Continues c') (i : TaskId) (jobs : List Job)
    (resume : List (Except Fault CheckResult) → Task Reply) :
    c.Continues (c'.startBatch i jobs resume) := by
  have hfold : ∀ (batch : Nat) (js : List (Job × Nat)) {c' : Chronicle}, c.Continues c' →
      c.Continues (js.foldl (fun c (job, index) =>
        c.begin (.job batch index) (.job job) (Session.jobTask batch index job)) c') := by
    intro batch js
    induction js with
    | nil => exact id
    | cons j js ih => exact fun h => ih ((h.note _ _).onSession _)
  exact hfold _ _ ((h.note i _).onSession _)

/-- A task that is run only adds to what is written down. -/
theorem run (h : c.Continues c') (i : TaskId) (t : Task Reply) : c.Continues (c'.run i t) := by
  induction t generalizing c' with
  | done f => exact (h.note i _).onSession _
  | read k ih => exact ih _ h
  | write s k ih => exact ih (h.onSession _)
  | spawn call k ih =>
    have hspawned : c.Continues (c'.spawned i call) := (h.note i _).onSession _
    rw [Chronicle.run]
    cases (Behaviour.take call c'.session.script).1.fault? with
    | some fault => exact ih _ ((hspawned.note i _).note i _)
    | none =>
      simp only
      split
      · exact hspawned.onSession _
      · exact ih _ (((hspawned.onSession _).note i _).note i _)
  | sleep ms k => exact (h.note i (.slept ms)).onSession (·.lieDown k)
  | lock l k ih =>
    rw [Chronicle.run]
    split
    · exact (h.note i _).onSession _
    · exact ih ((((h.note i _).onSession _).note i _).note i _)
  | unlock l k ih => exact ih (h.leave i l)
  | gather jobs k ih =>
    rw [Chronicle.run]
    split
    · exact ih [] ((h.note i _).note i _)
    · exact h.startBatch i jobs k

theorem wake (h : c.Continues c') (pause : Nat) : c.Continues (c'.wake pause) := by
  rw [Chronicle.wake]
  cases c'.session.asleep.get? pause with
  | none => exact h
  | some t => exact ((h.onSession _).note _ _).run _ t

end Continues

/-- Only the host asks for something. -/
theorem continues_step {m : Move} (hm : ∀ q, m ≠ .request q) : c.Continues (c.step m) := by
  cases m with
  | request q => exact absurd rfl (hm q)
  | respond bs | world w => exact ⟨List.suffix_refl _, rfl⟩
  | release call =>
    rw [step]
    split
    · exact .refl c
    · exact (((Continues.refl c).onSession _).note _ _).onSession _
  | wake pause => exact (Continues.refl c).wake pause
  | take =>
    rw [step]
    split
    · exact .refl c
    · next r rest _ =>
      cases r with
      | task t => exact (((Continues.refl c).onSession _).note _ _).run _ t
      | jobEnded batch => exact ((Continues.refl c).onSession _).onSession (·.noteJob batch)

theorem continues_schedule {moves : List Move} (hmoves : ∀ m ∈ moves, m.IsSchedule) :
    c.Continues (moves.foldl step c) := by
  induction moves generalizing c with
  | nil => exact .refl c
  | cons m moves ih =>
    obtain ⟨hm, hmoves⟩ := List.forall_mem_cons.1 hmoves
    have hnew : ∀ q, m ≠ .request q := by
      rintro q rfl
      exact hm
    exact (continues_step c hnew).trans (ih _ hmoves)

theorem suffix_step (m : Move) : c.history <:+ (c.step m).history := by
  cases m with
  | request q =>
    rw [step]
    split
    · exact List.suffix_cons _ _
    · exact List.suffix_refl _
  | _ => exact (continues_step c (by simp)).past

theorem suffix_steps (moves : List Move) : c.history <:+ (moves.foldl step c).history := by
  induction moves generalizing c with
  | nil => exact List.suffix_refl _
  | cons m moves ih => exact (suffix_step c m).trans (ih _)

theorem after_append (setup : Setup) (moves more : List Move) :
    after setup (moves ++ more) = more.foldl step (after setup moves) := by
  rw [after, after, List.foldl_append]

theorem suffix_after (setup : Setup) (moves more : List Move) :
    (after setup moves).history <:+ (after setup (moves ++ more)).history := by
  rw [after_append]
  exact suffix_steps _ more

end Chronicle

end Overseer
