import Overseer.Proofs.DaemonCalls
import Overseer.Supervisor

set_option autoImplicit false

/-! # What programs may wait for

A program may wait for locks, for time to pass and for jobs. `Prog.Asks` bounds the number of locks
and pauses that it asks for, whatever it finds in the state and is told by child processes, and says
that it starts no jobs. Daemons are called without any lock, and whoever calls or stops one pauses
once at most; a check asks for one lock. So a job asks for one lock and two pauses at most, and as
it starts no jobs, batches are not nested in each other (`Job.asks_operation`). Only the operations
on all workspaces start jobs, and they do so before anything else (`Prog.FansOut`). -/

namespace Overseer

/-! ## Sequences and basic steps -/

section Asks

variable {α β : Type} {n m : Nat}

/-- A program asks for so many locks and pauses at most, whatever it finds in the state and is told
by child processes, and starts no jobs. -/
def Prog.Asks : Prog α → Nat → Prop
  | done _, _ => True
  | read k, n => ∀ s, (k s).Asks n
  | write _ k, n | unlock _ k, n => k.Asks n
  | sleep _ k, n | lock _ k, n => 0 < n ∧ k.Asks (n - 1)
  | spawn _ k, n => ∀ e, (k e).Asks n
  | gather _ _, _ => False

theorem Prog.Asks.mono {p : Prog α} (hp : p.Asks n) (hn : n ≤ m) : p.Asks m := by
  induction p generalizing n m with
  | done a => trivial
  | read k ih => exact fun s => ih s (hp s) hn
  | write s k ih => exact ih hp hn
  | spawn c k ih => exact fun e => ih e (hp e) hn
  | sleep ms k ih | lock l k ih =>
    exact ⟨hp.1.trans_le hn, ih hp.2 (Nat.sub_le_sub_right hn 1)⟩
  | unlock l k ih => exact ih hp hn
  | gather jobs k => exact hp

/-- What both parts of a sequence ask for adds up. -/
theorem Prog.Asks.bind {p : Prog α} {f : α → Prog β} (hp : p.Asks n) (hf : ∀ a, (f a).Asks m) :
    (p.bind f).Asks (n + m) := by
  induction p generalizing n with
  | done a => exact (hf a).mono (Nat.le_add_left m n)
  | read k ih => exact fun s => ih s (hp s)
  | write s k ih => exact ih hp
  | spawn c k ih => exact fun e => ih e (hp e)
  | sleep ms k ih | lock l k ih =>
    obtain ⟨hn, hk⟩ := hp
    refine ⟨by omega, ?_⟩
    rw [Nat.sub_add_comm hn]
    exact ih hk
  | unlock l k ih => exact ih hp
  | gather jobs k => exact hp

/-- Nothing is added in front of a program by one that asks for nothing. -/
theorem Prog.Asks.seq {p : Prog α} {f : α → Prog β} (hp : p.Asks 0) (hf : ∀ a, (f a).Asks n) :
    (p.bind f).Asks n :=
  Nat.zero_add n ▸ hp.bind hf

/-- A program starts with a job on each registered workspace, and asks for nothing itself. -/
def Prog.FansOut (p : Prog α) : Prop :=
  ∃ (job : Nat → Job) (k : State → List (Except Fault CheckResult) → Prog α),
    p = .read (fun s => .gather (s.registered.map job) (k s)) ∧ ∀ s rs, (k s rs).Asks 0

theorem Prog.FansOut.bind {p : Prog α} {f : α → Prog β} (hp : p.FansOut)
    (hf : ∀ a, (f a).Asks 0) : (p.bind f).FansOut := by
  obtain ⟨job, k, rfl, hk⟩ := hp
  exact ⟨job, fun s rs => (k s rs).bind f, rfl, fun s rs => (hk s rs).seq hf⟩

namespace Op

/-- An operation that may stop with a fault asks for so much at most, and starts no jobs. -/
structure Asks (p : Op α) (n : Nat) : Prop where
  run : p.run.Asks n

theorem Asks.add {x : Op α} {f : α → Op β} (hx : x.Asks n) (hf : ∀ a, (f a).Asks m) :
    (x >>= f).Asks (n + m) := by
  refine ⟨hx.run.bind fun r => ?_⟩
  cases r with
  | ok a => exact (hf a).run
  | error e => exact trivial

theorem Asks.bind {x : Op α} {f : α → Op β} (hx : x.Asks 0) (hf : ∀ a, (f a).Asks n) :
    (x >>= f).Asks n :=
  Nat.zero_add n ▸ hx.add hf

theorem Asks.mono {p : Op α} (hp : p.Asks n) (hn : n ≤ m) : p.Asks m := ⟨hp.run.mono hn⟩

theorem Asks.ite {c : Prop} [Decidable c] {x y : Op α} (hx : x.Asks n) (hy : y.Asks n) :
    (if c then x else y).Asks n := by
  split
  · exact hx
  · exact hy

theorem asks_pure (a : α) : (pure a : Op α).Asks n := ⟨trivial⟩

theorem asks_throw (e : Fault) : (throw e : Op α).Asks n := ⟨trivial⟩

theorem asks_state : state.Asks n := ⟨fun _ => trivial⟩

theorem asks_modify (f : State → State) : (modify f).Asks n := ⟨fun _ => trivial⟩

theorem asks_log (level : LogLevel) (source : LogSource) (text : String) :
    (log level source text).Asks n := asks_modify _

theorem asks_workspace (number : Nat) : (workspace number).Asks n := ⟨fun _ => trivial⟩

theorem asks_isRemoved (number : Nat) : (isRemoved number).Asks n := ⟨fun _ => trivial⟩

theorem asks_spawn (c : Call) : (spawn c).Asks n := ⟨fun _ => trivial⟩

theorem asks_sleep (ms : Int) : (sleep ms).Asks 1 :=
  (asks_modify _).bind fun _ => ⟨⟨Nat.one_pos, trivial⟩⟩

theorem asks_look (f : World → Except Fault α) : (look f).Asks n := by
  refine asks_state.bind fun s => ?_
  split
  · exact asks_pure _
  · exact asks_throw _

theorem asks_act (a : Act α) : (act a).Asks n := by
  refine asks_state.bind fun s => (asks_modify _).bind fun _ => ?_
  split
  · exact asks_pure _
  · exact asks_throw _

theorem Asks.attempt {p : Op α} (hp : p.Asks n) : (attempt p).Asks n :=
  ⟨hp.run.bind (m := 0) fun _ => trivial⟩

theorem Asks.withLock {p : Op α} (hp : p.Asks n) (l : Nat) : (withLock l p).Asks (n + 1) :=
  ⟨n.succ_pos, hp.run.bind (m := 0) fun _ => trivial⟩

end Op

end Asks

namespace Daemon

open Op

theorem asks_handle (n : Nat) : (handle n).Asks 0 := by
  have hmake : ∀ (w : World → Except Fault Handle) (f : Handle → State → State) (id : Nat),
      (look w >>= fun h => modify (f h) >>= fun _ => pure id).Asks 0 := fun w f id =>
    (asks_look w).bind fun h => (asks_modify (f h)).bind fun _ => asks_pure id
  refine (asks_workspace n).bind fun ws => (asks_look _).bind fun configured => ?_
  refine asks_state.bind fun s => ?_
  dsimp only
  cases s.handleOf.get? ws.key with
  | none => exact hmake _ _ _
  | some id => exact (asks_pure id).ite (hmake _ _ _)

theorem asks_withHandle {α : Type} (id : Nat) (f : Handle → Act α) : (withHandle id f).Asks 0 :=
  asks_state.bind fun _ => asks_act _

theorem asks_argv (n : Nat) (command : String) (args : List Json) : (argv n command args).Asks 0 :=
  (asks_handle n).bind fun _ => asks_state.bind fun _ => asks_look _

theorem asks_startChecker (call : Call) : (startChecker call).Asks 0 := by
  refine (asks_spawn call).attempt.bind fun r => ?_
  cases r with
  | ok ended => exact asks_pure ended
  | error e => exact Asks.ite ((asks_log _ _ _).bind fun _ => asks_throw _) (asks_throw e)

theorem asks_invoke (n : Nat) (argv : List Json) (command : String) :
    (invoke n argv command).Asks 0 := by
  refine (asks_workspace n).bind fun ws => (asks_look _).bind fun cwd => ?_
  refine (asks_act _).bind fun env => (asks_look _).bind fun line => ?_
  refine (asks_log _ _ _).bind fun _ => (asks_startChecker _).bind fun ended => ?_
  refine Asks.ite ((asks_log _ _ _).bind fun _ => asks_pure _) (Asks.ite ?_ ?_)
  · exact Asks.ite
      ((asks_log _ _ _).bind fun _ => (asks_log _ _ _).bind fun _ => asks_pure _)
      ((asks_log _ _ _).bind fun _ => asks_pure _)
  · exact (asks_log _ _ _).bind fun _ => asks_throw _

theorem asks_attempt (n id : Nat) (argv : List Json) (command : String) :
    (attempt n id argv command).Asks 0 := by
  refine asks_state.bind fun s => Asks.ite ((asks_modify _).bind fun _ => ?_) ?_
  all_goals
    refine (asks_invoke n argv command).attempt.bind fun r => ?_
    cases r with
    | ok r => exact asks_pure r
    | error e => exact Asks.ite ((asks_modify _).bind fun _ => asks_throw e) (asks_throw e)

/-! ### Attempts -/

section Attempts

variable {α : Type} {attempt : Nat → Prog (Except Fault α)}
  {between : Nat → Fault → Prog (Except Fault Unit)}

/-- Between two attempts there is one pause at most. -/
theorem asks_attemptsFrom (retries : Fault → Bool) (hattempt : ∀ k, (attempt k).Asks 0)
    (hbetween : ∀ k e, (between k e).Asks 1) (left number : Nat) :
    (Retry.attemptsFrom retries attempt between left number).Asks left := by
  induction left generalizing number with
  | zero => exact hattempt number
  | succ left ih =>
    refine (hattempt number).seq fun r => ?_
    cases r with
    | ok a => exact trivial
    | error e =>
      simp only
      split
      · rw [Nat.add_comm left 1]
        refine (hbetween number e).bind fun r => ?_
        cases r with
        | ok u => exact ih (number + 1)
        | error e => exact trivial
      · exact trivial

theorem asks_bounded (bound : Int) (retries : Fault → Bool) (hattempt : ∀ k, (attempt k).Asks 0)
    (hbetween : ∀ k e, (between k e).Asks 1) :
    (Retry.bounded bound retries attempt between).Asks (bound - 1).toNat := by
  rw [Retry.bounded]
  split
  · exact trivial
  · exact asks_attemptsFrom retries hattempt hbetween _ _

end Attempts

theorem asks_between {recover : Option (Fault → Op Unit)}
    (hrecover : ∀ f ∈ recover, ∀ e, (f e).Asks 0) (bound delay : Int) (number : Nat) (e : Fault) :
    (between recover bound delay number e).Asks 1 := by
  rw [between_eq_run]
  refine Asks.run ((asks_log _ _ _).bind fun _ => Asks.bind ?_ fun _ => ?_)
  · cases recover with
    | none => exact asks_pure ()
    | some f => exact hrecover f rfl e
  · exact (asks_sleep _).ite (asks_pure ())

theorem asks_give (n : Nat) (command : String) (args : List Json) (bound : Int)
    {recover : Option (Fault → Op Unit)} (hrecover : ∀ f ∈ recover, ∀ e, (f e).Asks 0) :
    (give n command args bound recover).Asks (bound - 1).toNat := by
  refine (asks_argv n command args).bind fun argv => (asks_handle n).bind fun id => ?_
  refine (asks_withHandle id _).bind fun _ => asks_state.bind fun s => ?_
  exact ⟨asks_bounded bound isStuck (fun _ => (asks_attempt n id argv command).run)
    (asks_between hrecover bound _)⟩

theorem asks_kill (n : Nat) : (kill n).Asks 0 := by
  have hgive : (give n "kill" [] 1 none).Asks 0 := asks_give n "kill" [] 1 (by simp)
  refine (asks_handle n).bind fun id => hgive.attempt.bind fun r => ?_
  cases r with
  | ok r => exact (asks_modify _).bind fun _ => asks_pure true
  | error e =>
    refine Asks.ite ((asks_workspace n).bind fun ws => ?_) (asks_throw e)
    exact (asks_log _ _ _).bind fun _ => asks_pure false

theorem asks_recoverStuck (n : Nat) : (recoverStuck n).Asks 0 := by
  refine (asks_workspace n).bind fun ws => (asks_log _ _ _).bind fun _ => ?_
  refine (asks_kill n).bind fun killed => Asks.ite ?_ (asks_pure ())
  refine (asks_handle n).bind fun id => (asks_withHandle id _).bind fun _ => ?_
  exact asks_modify _

theorem asks_run (n : Nat) (command : String) (args : List Json) (retryOnStuck : Bool) :
    (run n command args retryOnStuck).Asks 1 := by
  have hrecover : ∀ f ∈ some fun _ => recoverStuck n, ∀ e : Fault, (f e).Asks 0 := by
    rintro f ⟨⟩ e
    exact asks_recoverStuck n
  refine asks_state.bind fun s => (asks_give n command args _ hrecover).mono ?_
  split <;> decide

theorem asks_runDirect (n : Nat) (args : List Json) : (runDirect n args).Asks 0 :=
  (asks_workspace n).bind fun _ => (asks_look _).bind fun _ => asks_invoke n _ _

theorem asks_stopAttempt (n : Nat) (argv : List Json) (number : Nat) :
    (stopAttempt n argv number).Asks 0 := by
  refine (asks_invoke n argv "stop").attempt.bind fun r => ?_
  cases r with
  | ok r => exact asks_pure true
  | error e =>
    refine Asks.ite ((asks_workspace n).bind fun ws => ?_) (asks_throw e)
    exact (asks_log _ _ _).bind fun _ => asks_pure true

theorem asks_stop (n : Nat) : (stop n).Asks 1 := by
  refine (asks_handle n).bind fun id => asks_state.bind fun s => (asks_look _).bind fun absent => ?_
  refine Asks.ite ((asks_log _ _ _).bind fun _ => asks_pure true) ?_
  refine (asks_argv n "stop" []).attempt.bind fun r => ?_
  cases r with
  | error e => exact Asks.ite ((asks_log _ _ _).bind fun _ => asks_pure false) (asks_throw e)
  | ok argv =>
    have hattempts : (Retry.bounded 2 isFailure (fun number => (stopAttempt n argv number).run)
        (between none 2 s.daemons.stopDelay)).Asks 1 :=
      asks_bounded 2 isFailure (fun k => (asks_stopAttempt n argv k).run)
        (asks_between (by simp) 2 _)
    refine (Asks.attempt (p := ExceptT.mk _) ⟨hattempts⟩).add (m := 0) fun r => ?_
    cases r with
    | error e => exact Asks.ite ((asks_log _ _ _).bind fun _ => asks_pure false) (asks_throw e)
    | ok stopped =>
      exact (asks_modify _).bind fun _ => (asks_log _ _ _).bind fun _ => asks_pure stopped

end Daemon

namespace Check

open Op

theorem asks_notify (notice : Notice) : (notify notice).Asks 0 :=
  asks_state.bind fun _ => Asks.ite (asks_modify _) (asks_log _ _ _)

theorem asks_failed (n : Nat) (f : Failure) (cause : Option FaultClass) :
    (failed n f cause).Asks 0 := by
  refine (asks_workspace n).bind fun ws => ?_
  refine (asks_log _ _ _).bind fun _ => Asks.ite ?_ (asks_pure _)
  exact (asks_notify _).bind fun _ => asks_pure _

theorem asks_contained (n : Nat) (subject : String) {call : Op RunResult} {asked : Nat}
    (hcall : call.Asks asked) : (contained n subject call).Asks asked := by
  refine hcall.attempt.add (m := 0) fun r => ?_
  cases r with
  | ok r => exact asks_pure _
  | error e =>
    cases e with
    | failure f cause => exact (asks_failed n f cause).bind fun _ => asks_pure _
    | _ => exact (asks_log _ _ _).bind fun _ => (asks_workspace n).bind fun _ => asks_pure _

theorem asks_lockFor (n : Nat) : (lockFor n).Asks 0 := by
  refine asks_state.bind fun s => ?_
  dsimp only
  cases s.lockOf.get? (s.workspace n).key with
  | none => exact (asks_modify _).bind fun _ => asks_pure _
  | some l => exact asks_pure l

theorem asks_serialized (n : Nat) {check : Op CheckResult} {asked : Nat}
    (hcheck : check.Asks asked) : (serialized n check).Asks (asked + 1) := by
  refine (asks_lockFor n).bind fun l => Asks.withLock ?_ l
  refine (asks_isRemoved n).bind fun removed => Asks.ite ?_ hcheck
  exact (asks_workspace n).bind fun ws => (asks_log _ _ _).bind fun _ => asks_pure _

theorem asks_install (n id : Nat) (run : RunResult) : (install n id run).Asks 0 := by
  refine (asks_look _).bind fun found => (asks_look _).bind fun files => ?_
  refine (asks_workspace n).bind fun ws => Asks.bind (x := isStale n id) ?_ fun stale => ?_
  · exact asks_state.bind fun _ => asks_pure _
  · refine Asks.ite ((asks_log _ _ _).bind fun _ => asks_pure _) ?_
    exact (asks_modify _).bind fun _ => (asks_log _ _ _).bind fun _ => asks_pure _

theorem asks_checkHolding (n : Nat) : (checkHolding n).Asks 1 := by
  refine Asks.bind (x := collection n) ?_ fun id => (asks_workspace n).bind fun ws => ?_
  · exact asks_state.bind fun _ => (asks_modify _).bind fun _ => asks_pure _
  refine Asks.ite ?_ ((asks_log _ _ _).bind fun _ => ?_)
  · exact (asks_log _ _ _).bind fun _ => (asks_modify _).bind fun _ => asks_pure _
  · refine (asks_contained n _ ((asks_look _).bind fun args => ?_)).add (m := 0) fun r => ?_
    · exact Daemon.asks_run n "run" args true
    · cases r with
      | ok run => exact asks_install n id run
      | error result => exact asks_pure result

theorem asks_whole (n : Nat) : (workspace n).Asks 2 := asks_serialized n (asks_checkHolding n)

theorem asks_restart (n : Nat) : (restart n).Asks 3 :=
  asks_serialized n ((Daemon.asks_stop n).add fun _ => asks_checkHolding n)

theorem asks_rebase (map : LineMap) (found : List Finding) : (rebase map found).Asks 0 := by
  have hdropped : ∀ ds : List Dropped,
      (ds.forM fun d => log .debug .remap d.text : Op Unit).Asks 0 := by
    intro ds
    induction ds with
    | nil => exact asks_pure ()
    | cons d ds ih => exact (asks_log _ _ _).bind fun _ => ih
  exact (hdropped _).bind fun _ => asks_pure _

theorem asks_fragmentsHolding (n : Nat) (document : String) (cells : List Cell)
    (language : String) : (fragmentsHolding n document cells language).Asks 0 := by
  refine Asks.bind (x := collection n) ?_ fun id => (asks_workspace n).bind fun ws => ?_
  · exact asks_state.bind fun _ => (asks_modify _).bind fun _ => asks_pure _
  refine Asks.ite ((asks_modify _).bind fun _ => asks_pure _) ?_
  refine (asks_look _).bind fun targets => Asks.ite ?_ ((asks_log _ _ _).bind fun _ => ?_)
  · exact (asks_modify _).bind fun _ => asks_pure _
  · refine (asks_contained n _ ((asks_look _).bind fun args => ?_)).bind fun r => ?_
    · exact Daemon.asks_runDirect n _
    · cases r with
      | error result => exact asks_pure result
      | ok run =>
        refine (asks_look _).bind fun found => (asks_rebase _ found).bind fun fragments => ?_
        refine Asks.bind (x := isStale n id) (asks_state.bind fun _ => asks_pure _) fun stale => ?_
        refine Asks.ite ?_ ?_
        · exact (asks_log _ _ _).bind fun _ => asks_pure _
        · exact (asks_modify _).bind fun _ => asks_pure _

theorem asks_fragments (n : Nat) (document : String) (cells : List Cell) (language : String) :
    (fragments n document cells language).Asks 1 :=
  asks_serialized n (asks_fragmentsHolding n document cells language)

theorem asks_killDaemon (n : Nat) : (killDaemon n).Asks 0 := by
  refine (Daemon.asks_kill n).bind fun killed => Asks.ite ?_ ?_
  · refine (Daemon.asks_handle n).bind fun id => (Daemon.asks_withHandle id _).bind fun _ => ?_
    exact (asks_workspace n).bind fun _ => asks_pure _
  · exact (asks_workspace n).bind fun _ => asks_pure _

theorem asks_stopDaemon (n : Nat) : (stopDaemon n).Asks 1 :=
  (Daemon.asks_stop n).add (m := 0) fun _ => (asks_workspace n).bind fun _ => asks_pure _

end Check

/-- A job asks for one lock and two pauses at most, and starts no jobs. -/
theorem Job.asks_operation (job : Job) : job.operation.Asks 3 := by
  cases job with
  | check n => exact (Check.asks_whole n).mono (by decide)
  | restart n => exact Check.asks_restart n
  | stop n => exact (Check.asks_stopDaemon n).mono (by decide)

namespace Supervisor

open Op

theorem asks_keyOf (root : String) : (keyOf root).Asks 0 :=
  (asks_look _).bind fun _ => asks_pure _

theorem asks_find (root : String) : (find root).Asks 0 :=
  (asks_keyOf root).bind fun _ => asks_state.bind fun _ => asks_pure _

theorem asks_require (root : String) : (require root).Asks 0 := by
  refine (asks_find root).bind fun found => ?_
  cases found with
  | some n => exact asks_pure n
  | none => exact asks_throw _

theorem asks_replaceSettings (n : Nat) (settings : Settings) :
    (replaceSettings n settings).Asks 0 :=
  (asks_modify _).bind fun _ => asks_modify _

theorem asks_add (root : String) (settings : Option Settings) : (add root settings).Asks 0 := by
  refine (asks_look _).bind fun ws => asks_state.bind fun s => ?_
  dsimp only
  cases s.registry.get? ws.key with
  | some n =>
    cases settings with
    | some settings => exact (asks_replaceSettings n settings).bind fun _ => asks_pure n
    | none => exact asks_pure n
  | none =>
    refine (asks_modify _).bind fun _ => Asks.bind (x := applyDebugLogging) (asks_modify _) ?_
    exact fun _ => (asks_log _ _ _).bind fun _ => asks_pure _

theorem asks_remove (root : String) : (remove root).Asks 1 := by
  refine (asks_keyOf root).bind fun key => asks_state.bind fun s => ?_
  cases s.registry.get? key with
  | none => exact asks_pure false
  | some n =>
    refine (asks_modify _).bind fun _ => (asks_modify _).bind fun _ => ?_
    refine Asks.bind (x := disposeStore key) (asks_modify _) fun _ => ?_
    refine (Check.asks_stopDaemon n).add (m := 0) fun stopped => ?_
    refine Asks.bind (x := Check.forget n) ?_ fun _ => ?_
    · refine (asks_workspace n).bind fun _ => (asks_modify _).bind fun _ => ?_
      exact (asks_workspace n).bind fun _ => asks_modify _
    · exact (asks_workspace n).bind fun _ => (asks_log _ _ _).bind fun _ => asks_pure _

theorem asks_update (root : String) (settings : Settings) : (update root settings).Asks 0 :=
  (asks_require root).bind fun n => (asks_replaceSettings n settings).bind fun _ => asks_pure n

theorem asks_check (root : String) : (check root).Asks 2 :=
  (asks_require root).bind Check.asks_whole

theorem asks_notebook (root document : String) (cells : List Cell) (language : String) :
    (notebook root document cells language).Asks 1 :=
  (asks_require root).bind fun n => Check.asks_fragments n document cells language

theorem asks_signal (root : String) (reason : Signal) (paths : List String) :
    (signal root reason paths).Asks 3 := by
  have hsome : ∀ {p : Op CheckResult} {m : Nat}, p.Asks m → m ≤ 3 →
      (p >>= fun r => pure (some r)).Asks 3 :=
    fun hp hm => (hp.mono hm).add (m := 0) fun r => asks_pure (some r)
  refine (asks_find root).bind fun found => ?_
  cases found with
  | none => exact (asks_log _ _ _).bind fun _ => asks_pure none
  | some n =>
    refine (asks_workspace n).bind fun ws => Asks.ite ?_ (Asks.ite ?_ ?_)
    · exact (asks_log _ _ _).bind fun _ => hsome (Check.asks_restart n) le_rfl
    · refine (asks_look _).bind fun config => (asks_look _).bind fun relevant => Asks.ite ?_ ?_
      · exact (asks_log _ _ _).bind fun _ => asks_pure none
      · exact hsome (Check.asks_whole n) (by decide)
    · exact hsome (Check.asks_whole n) (by decide)

/-! ## Operations on all workspaces -/

theorem asks_jobResult (n : Nat) (r : Except Fault CheckResult) : (jobResult n r).Asks 0 := by
  cases r with
  | ok r => exact asks_pure r
  | error e => exact (asks_workspace n).bind fun _ => (asks_log _ _ _).bind fun _ => asks_pure _

/-- What is left to do when all jobs have ended. -/
def concluding (numbers : List Nat) (results : List (Except Fault CheckResult)) :
    Op BatchReport := do
  let report : BatchReport := ⟨← (numbers.zip results).mapM fun x => jobResult x.1 x.2⟩
  if !report.failures.isEmpty then
    let failures := report.failures.length
    let all := report.results.length
    Op.log .warning .supervisor s!"{failures} of {all} workspaces failed"
  return report

theorem asks_concluding (numbers : List Nat) (results : List (Except Fault CheckResult)) :
    (concluding numbers results).Asks 0 := by
  have hresults : ∀ xs : List (Nat × Except Fault CheckResult),
      (xs.mapM fun x => jobResult x.1 x.2 : Op (List CheckResult)).Asks 0 := by
    intro xs
    induction xs with
    | nil => exact asks_pure []
    | cons x xs ih =>
      rw [List.mapM_cons]
      exact (asks_jobResult x.1 x.2).bind fun _ => ih.bind fun _ => asks_pure _
  refine (hresults _).bind fun report => Asks.ite ?_ (asks_pure _)
  exact (asks_log _ _ _).bind fun _ => asks_pure _

theorem run_fanOut (job : Nat → Job) : (fanOut job).run = .read fun s =>
    .gather (s.registered.map job) fun rs => (concluding s.registered rs).run := rfl

theorem fansOut_fanOut (job : Nat → Job) : (fanOut job).run.FansOut :=
  ⟨job, _, run_fanOut job, fun s rs => (asks_concluding s.registered rs).run⟩

end Supervisor

end Overseer
