import Overseer.Proofs.Tidiness

set_option autoImplicit false

/-! # Commands that come to nothing, and stopping

An attempt whose process could not be started leaves the mark of the handle as it was
(`plays_attempt_refused`). A daemon may be said to be stopped although no process was started for
that; then the mark was down and there was no status file (`plays_stop`). Whether a mark that is
down can be relied on is another matter. -/

namespace Overseer

namespace Daemon

open Op

variable {children : Children} {ds : List Deed} {s : State} {n id : Nat} {argv : List Json}
  {command : String}

/-- A process that could not be started is reported as missing. -/
theorem plays_invoke_refused (hquiet : children.Quiet) :
    (invoke n argv command).Plays children (fun r ds' s' => ∀ d e, ds' = [.started d] →
      d.answer = .error e → e.cls.isA .os = true → s'.handles = s.handles ∧
        ∃ e', r = .error e' ∧ e'.cls.isA .executableNotFound = true) [] s := by
  refine plays_invoke (fun e s' _ _ _ d e hds => absurd hds (by simp))
    fun d s' _ _ hd hs' d' e hds hanswer hos => ?_
  obtain rfl : d = d' := by simpa using hds
  refine ⟨((hs' hquiet).handles).trans hd.handles, ?_⟩
  simp only [verdict, hanswer, hos, if_true]
  exact ⟨_, rfl, rfl⟩

/-- An attempt whose process could not be started leaves all marks as they were. -/
theorem plays_attempt_refused (hquiet : children.Quiet) (n id : Nat) (argv : List Json)
    (command : String) (s : State) :
    (attempt n id argv command).Plays children (fun _ ds' s' => ∀ d e, ds' = [.started d] →
      d.answer = .error e → e.cls.isA .os = true → ∀ id', s'.started id' = s.started id') [] s := by
  -- the mark is set back, whether it has been set or not
  have hback : ∀ s₁ s' : State, (s₁ = s ∨ s₁ = s.mark id true) → s'.handles = s₁.handles →
      ∀ id', (s'.mark id (s.started id)).started id' = s.started id' := by
    intro s₁ s' hs₁ hs' id'
    rw [State.started_of_handles (State.mark_of_handles id _ hs')]
    rcases hs₁ with rfl | rfl
    · exact State.started_mark_same id id'
    · rw [State.mark_mark]
      exact State.started_mark_same id id'
  have hthrow : ∀ s₁ : State, (s₁ = s ∨ s₁ = s.mark id true) → ∀ e' ds' s',
      (∀ d e, ds' = [.started d] → d.answer = .error e → e.cls.isA .os = true →
        s'.handles = s₁.handles ∧ ∃ e'', (.error e' : Except Fault RunResult) = .error e'' ∧
          e''.cls.isA .executableNotFound = true) →
      (do
        if e'.cls.isA .executableNotFound then setStarted id (s.started id)
        throw e' : Op RunResult).Plays children (fun _ ds' s' => ∀ d e, ds' = [.started d] →
      d.answer = .error e → e.cls.isA .os = true → ∀ id', s'.started id' = s.started id')
        ds' s' := by
    intro s₁ hs₁ e' ds' s' hrefused
    split
    · simp only [plays_bind, plays_setStarted, then_ok, plays_throw]
      intro d e hds hanswer hos
      exact hback s₁ s' hs₁ (hrefused d e hds hanswer hos).1
    · next hfound =>
      rw [plays_throw]
      intro d e hds hanswer hos
      obtain ⟨-, e'', he'', hmissing⟩ := hrefused d e hds hanswer hos
      cases he''
      exact absurd hmissing hfound
  rw [attempt]
  simp only [plays_bind, plays_state, then_ok]
  split
  · simp only [plays_bind, plays_setStarted, then_ok, Op.plays_attempt]
    refine (plays_invoke_refused hquiet).mono fun r ds' s' hr => ?_
    cases r with
    | ok r =>
      refine (plays_pure r).2 fun d e hds hanswer hos => ?_
      obtain ⟨-, e', he', -⟩ := hr d e hds hanswer hos
      exact absurd he' (by simp)
    | error e => exact hthrow _ (.inr rfl) e ds' s' hr
  · simp only [plays_bind, then_ok, Op.plays_attempt]
    refine (plays_invoke_refused hquiet).mono fun r ds' s' hr => ?_
    cases r with
    | ok r =>
      refine (plays_pure r).2 fun d e hds hanswer hos => ?_
      obtain ⟨-, e', he', -⟩ := hr d e hds hanswer hos
      exact absurd he' (by simp)
    | error e => exact hthrow s (.inl rfl) e ds' s' hr

/-! ## Attempts to stop -/

/-- The pauses between two attempts: none if there is no delay. -/
def pauses (delay : Int) : List Int := if delay = 0 then [] else [delay]

theorem plays_between_none {bound delay : Int} {number : Nat} {e : Fault} :
    (between none bound delay number e).Plays children (fun r ds' s' => r = .ok () ∧ ds' = ds ∧
      (children.Outside → { s with sleeps := s.sleeps ++ pauses delay }.Beside s')) ds s := by
  rw [between, Retry.pause]
  simp only [Option.map_none, Prog.plays_seq, ← plays_iff_run, plays_log, Prog.plays_return]
  split
  · next hdelay =>
    simp only [Prog.plays_seq, ← plays_iff_run, plays_sleep, Prog.plays_return, pauses,
      if_neg hdelay]
    refine ⟨trivial, trivial, fun houtside => ?_⟩
    exact State.Beside.trans ⟨_, rfl⟩ (houtside.pause _ _ delay)
  · next hdelay =>
    rw [Prog.plays_return, pauses, if_pos (not_not.1 hdelay), List.append_nil]
    exact ⟨rfl, rfl, fun _ => ⟨_, rfl⟩⟩

/-- What an attempt to stop a daemon comes to by what its process says. That there is no daemon is
as good as a success the second time. -/
def stopVerdict (number : Nat) (d : Dealing) : Except Fault Bool :=
  match verdict "stop" d with
  | .ok _ => .ok true
  | .error e => if 1 < number && saysNotRunning e then .ok true else .error e

/-- An attempt to stop a daemon stops with a fault that is no failure unless it starts a process. -/
theorem plays_stopAttempt {number : Nat} :
    (stopAttempt n argv number).Plays children (fun r ds' s' =>
      (ds' = ds ∧ (∃ e, r = .error e ∧ isFailure e = false) ∧ s.Beside s') ∨
      ∃ d, ds' = ds ++ [.started d] ∧ words argv = .ok d.call.argv ∧ r = stopVerdict number d ∧
        s.Beside d.state ∧ (children.Outside → s.Beside s')) ds s := by
  rw [stopAttempt]
  simp only [plays_bind, Op.plays_attempt]
  refine plays_invoke_noted (fun e s' _ hfailure hs' => ?_) fun d s' _ hwords hd hs' => ?_
  · have hnot : saysNotRunning e = false := by
      by_contra hsays
      rw [isFailure_of_saysNotRunning (by simpa using hsays)] at hfailure
      exact absurd hfailure (by simp)
    simp only [then_ok, hnot, Bool.and_false, Bool.false_eq_true, if_false, plays_throw]
    exact .inl ⟨trivial, ⟨e, rfl, hfailure⟩, hs'.beside⟩
  · have htold : ∀ r s'', r = stopVerdict number d → s'.Noted s'' →
        (ds ++ [Deed.started d] = ds ∧ (∃ e, r = .error e ∧ isFailure e = false) ∧ s.Beside s'') ∨
        ∃ d', ds ++ [Deed.started d] = ds ++ [.started d'] ∧ words argv = .ok d'.call.argv ∧
          r = stopVerdict number d' ∧ s.Beside d'.state ∧ (children.Outside → s.Beside s'') := by
      intro r s'' hr hs''
      refine .inr ⟨d, rfl, hwords, hr, hd.beside, fun houtside => ?_⟩
      have hanswered := hd.beside.trans (houtside.answer ds d.state d.call)
      exact (hanswered.trans hs'.beside).trans hs''.beside
    have hverdict : stopVerdict number d = match verdict "stop" d with
      | .ok _ => .ok true
      | .error e => if 1 < number && saysNotRunning e then .ok true else .error e := rfl
    cases hd : verdict "stop" d with
    | ok r =>
      rw [hd] at hverdict
      simp only [then_ok, plays_pure]
      exact htold _ _ hverdict.symm (.refl s')
    | error e =>
      rw [hd] at hverdict
      simp only [then_ok]
      split
      · next hsays =>
        simp only [plays_bind, plays_workspace, plays_log, then_ok, plays_pure]
        exact htold _ _ (hverdict.trans (if_pos hsays)).symm (State.noted_record s' _)
      · next hsays =>
        rw [plays_throw]
        exact htold _ _ (hverdict.trans (if_neg hsays)).symm (.refl s')

/-- The attempts to stop a daemon with a command line: the processes that were started, and the
result. -/
inductive StopCourse (argv : List Json) : List Dealing → Except Fault Bool → Prop
  /-- The first process cannot be started. -/
  | unstarted {e : Fault} (he : isFailure e = false) : StopCourse argv [] (.error e)
  /-- The first process has stopped the daemon. -/
  | stopped {d : Dealing} {r : RunResult} (hd : words argv = .ok d.call.argv)
    (hr : verdict "stop" d = .ok r) : StopCourse argv [d] (.ok true)
  /-- The fault of the first process is no failure of the checker. -/
  | escaped {d : Dealing} {e : Fault} (hd : words argv = .ok d.call.argv)
    (hr : verdict "stop" d = .error e) (he : isFailure e = false) : StopCourse argv [d] (.error e)
  /-- The first process has failed, and no second one can be started. -/
  | broken {d : Dealing} {e e' : Fault} (hd : words argv = .ok d.call.argv)
    (hr : verdict "stop" d = .error e) (he : isFailure e = true) (he' : isFailure e' = false) :
    StopCourse argv [d] (.error e')
  /-- The first process has failed, and the second one decides. -/
  | twice {d d' : Dealing} {e : Fault} (hd : words argv = .ok d.call.argv)
    (hr : verdict "stop" d = .error e) (he : isFailure e = true)
    (hd' : words argv = .ok d'.call.argv) : StopCourse argv [d, d'] (stopVerdict 2 d')

/-- Attempts that come out well have started a process and have stopped the daemon. -/
theorem StopCourse.of_ok {processes : List Dealing} {r : Except Fault Bool} {stopped : Bool}
    (h : StopCourse argv processes r) (hr : r = .ok stopped) : stopped = true ∧ processes ≠ [] := by
  cases h with
  | unstarted he => exact absurd hr (by simp)
  | stopped hd hr' => exact ⟨(Except.ok.inj hr).symm, by simp⟩
  | escaped hd hr' he => exact absurd hr (by simp)
  | broken hd hr' he he' => exact absurd hr (by simp)
  | twice hd hr' he hd' =>
    unfold stopVerdict at hr
    split at hr
    · exact ⟨(Except.ok.inj hr).symm, by simp⟩
    · split at hr
      · exact ⟨(Except.ok.inj hr).symm, by simp⟩
      · exact absurd hr (by simp)

/-- Nobody else interferes: before each process there are just the pauses between the attempts, and
the handles are as they were. -/
structure Undisturbed (s : State) (delay : Int) (processes : List Dealing) (s' : State) : Prop where
  pauses : processes.map (fun d => d.state.sleeps) <+: [s.sleeps, s.sleeps ++ pauses delay]
  handles : s'.handles = s.handles

theorem plays_stopAttempts {delay : Int} :
    (Retry.attemptsFrom isFailure (fun number => (stopAttempt n argv number).run)
      (between none 2 delay) 1 1).Plays children (fun r ds' s' => ∃ processes,
        ds' = ds ++ processes.map .started ∧ StopCourse argv processes r ∧
          (children.Outside → Undisturbed s delay processes s')) ds s := by
  rw [Retry.attemptsFrom]
  simp only [Prog.plays_seq, ← plays_iff_run]
  refine plays_stopAttempt.mono fun r ds₁ s₁ hr => ?_
  rcases hr with ⟨rfl, ⟨e, rfl, he⟩, hs₁⟩ | ⟨d, rfl, hd, rfl, hbefore, hafter⟩
  · simp only [he, Bool.false_eq_true, if_false]
    exact (Prog.plays_return _ _).2 ⟨[], by simp, .unstarted he, fun _ => ⟨by simp, hs₁.handles⟩⟩
  · have hone : children.Outside → Undisturbed s delay [d] s₁ := fun houtside =>
      ⟨by simp [hbefore.sleeps], (hafter houtside).handles⟩
    rw [stopVerdict]
    cases hr : verdict "stop" d with
    | ok r => exact (Prog.plays_return _ _).2 ⟨[d], rfl, .stopped hd hr, hone⟩
    | error e =>
      simp only [Nat.lt_irrefl, decide_false, Bool.false_and, Bool.false_eq_true, if_false]
      split
      · next he =>
        rw [Prog.plays_seq]
        refine plays_between_none.mono fun r ds₂ s₂ hr₂ => ?_
        obtain ⟨rfl, rfl, hpaused⟩ := hr₂
        show Prog.Plays _ _ (stopAttempt n argv 2).run _ _
        rw [← plays_iff_run]
        refine plays_stopAttempt.mono fun r ds₃ s₃ hr₃ => ?_
        rcases hr₃ with ⟨rfl, ⟨e', rfl, he'⟩, hs₃⟩ | ⟨d', rfl, hd', rfl, hbefore', hafter'⟩
        · refine ⟨[d], rfl, .broken hd hr he he', fun houtside => ⟨(hone houtside).pauses, ?_⟩⟩
          rw [hs₃.handles, (hpaused houtside).handles, (hafter houtside).handles]
        · refine ⟨[d, d'], by simp, .twice hd hr he hd', fun houtside => ⟨?_, ?_⟩⟩
          · simp [hbefore.sleeps, hbefore'.sleeps, (hpaused houtside).sleeps,
              (hafter houtside).sleeps]
          · rw [(hafter' houtside).handles, (hpaused houtside).handles, (hafter houtside).handles]
      · next he =>
        exact (Prog.plays_return _ _).2 ⟨[d], rfl, .escaped hd hr (by simpa using he), hone⟩

/-! ## The course of stopping -/

/-- No daemon was started with a handle, and it has no status file. -/
def Idle (s : State) (id : Nat) : Prop :=
  s.started id = false ∧ (s.handle id).statusFileExists s.world = .ok false

/-- A daemon was started with a handle, or it has a status file. -/
def Pending (s : State) (id : Nat) : Prop :=
  s.started id = true ∨ (s.handle id).statusFileExists s.world = .ok true

/-- No daemon was started with a handle, and it cannot be told whether it has a status file. -/
def Unclear (s : State) (id : Nat) (e : Fault) : Prop :=
  s.started id = false ∧ (s.handle id).statusFileExists s.world = .error e

/-- There is no daemon to stop, or there may be one, or that cannot be told. -/
theorem isAbsent_cases (s : State) (id : Nat) :
    Idle s id ∧ isAbsent s id = .ok true ∨
      (Pending s id ∧ ¬ Idle s id) ∧ isAbsent s id = .ok false ∨
      ∃ e, (Unclear s id e ∧ ¬ Idle s id ∧ ¬ Pending s id) ∧ isAbsent s id = .error e := by
  unfold isAbsent Idle Pending Unclear
  cases s.started id with
  | true => simp
  | false =>
    rcases (s.handle id).statusFileExists s.world with e | there
    · exact .inr (.inr ⟨e, by simp, rfl⟩)
    · cases there <;> simp [bind, Except.bind, pure, Except.pure]

/-- The command line that is to stop the daemon of a handle. -/
def stopLine (s : State) (n id : Nat) : Except Fault (List Json) :=
  (s.workspace n).daemonArgv s.world (s.handle id) "stop" []

/-- A failure of the checker is only noted: the daemon has not been stopped. -/
def conceded : Except Fault Bool → Except Fault Bool
  | .ok stopped => .ok stopped
  | .error e => if isFailure e then .ok false else .error e

/-- How stopping goes once the handle has been looked up: the processes that are started, and the
result. -/
inductive Stops (s : State) (n id : Nat) : List Dealing → Except Fault Bool → Prop
  | idle (hidle : Idle s id) : Stops s n id [] (.ok true)
  | unclear {e : Fault} (he : Unclear s id e) : Stops s n id [] (.error e)
  | lineless {e : Fault} (hpending : Pending s id) (hline : stopLine s n id = .error e) :
    Stops s n id [] (conceded (.error e))
  | tried {argv : List Json} {processes : List Dealing} {r : Except Fault Bool}
    (hpending : Pending s id) (hline : stopLine s n id = .ok argv)
    (hcourse : StopCourse argv processes r) : Stops s n id processes (conceded r)

/-- The handles after stopping: a daemon that has been stopped by a process is not marked as started
any more. -/
def handlesAfter (s : State) (id : Nat) (processes : List Dealing) (r : Except Fault Bool) :
    List Handle :=
  match processes, r with
  | _ :: _, .ok true => (s.mark id false).handles
  | _, _ => s.handles

theorem conceded_error_ne (e : Fault) : conceded (.error e) ≠ .ok true := by
  rw [conceded]
  split <;> simp

theorem handlesAfter_of_ne {processes : List Dealing} {r : Except Fault Bool} (hr : r ≠ .ok true) :
    handlesAfter s id processes r = s.handles := by
  unfold handlesAfter
  split
  · exact absurd rfl hr
  · rfl

/-- How stopping is told that begins in one state with a handle and ends in another. -/
structure StopTold (children : Children) (s : State) (n id : Nat) (processes : List Dealing)
    (r : Except Fault Bool) (s' : State) : Prop where
  stops : Stops s n id processes r
  pauses : children.Outside → processes.map (fun d => d.state.sleeps) <+:
    [s.sleeps, s.sleeps ++ pauses s.daemons.stopDelay]
  handles : children.Outside → s'.handles = handlesAfter s id processes r

/-- A fault that is a failure of the checker is only noted. -/
theorem plays_concede (children : Children) (text : String) (e : Fault) (ds : List Deed)
    (s : State) :
    (if isFailure e then do
        log .warning .adapter text
        return false
      else throw e : Op Bool).Plays children
        (fun r ds' s' => r = conceded (.error e) ∧ ds' = ds ∧ s.Beside s') ds s := by
  rw [conceded]
  split
  · simp only [plays_bind, plays_log, then_ok, plays_pure]
    exact ⟨trivial, trivial, _, rfl⟩
  · rw [plays_throw]
    exact ⟨rfl, rfl, _, rfl⟩

theorem plays_stopLine {Q : Except Fault (List Json) → List Deed → State → Prop}
    (hid : Fits s n id) :
    (Daemon.argv n "stop" []).Plays children Q ds s ↔ Q (stopLine s n id) ds s := by
  rw [Daemon.argv]
  simp only [plays_bind, plays_handle_of_fits hid, then_ok, plays_state, plays_look, stopLine]

theorem plays_stop_told (children : Children) (n : Nat) (ds : List Deed) (s : State) :
    (stop n).Plays children (fun r ds' s' =>
      (ds' = ds ∧ s' = s ∧ ∃ e, r = .error e ∧ Unhandled n e s) ∨
      ∃ id s₁ processes, Found s n id s₁ ∧ ds' = ds ++ processes.map .started ∧
        StopTold children s₁ n id processes r s') ds s := by
  rw [stop]
  simp only [plays_bind]
  refine plays_handle (fun id s₁ hfound => ?_) fun e he _ =>
    (then_error _ _ _).2 (.inl ⟨rfl, rfl, e, rfl, he⟩)
  simp only [then_ok, plays_bind, plays_state, plays_look]
  rcases isAbsent_cases s₁ id with
    ⟨hidle, habsent⟩ | ⟨⟨hpending, -⟩, habsent⟩ | ⟨e, ⟨he, -⟩, habsent⟩
  · simp only [habsent, if_true, plays_bind, plays_log, then_ok, plays_pure]
    exact .inr ⟨id, s₁, [], hfound, by simp, .idle hidle, by simp, fun _ => rfl⟩
  · simp only [habsent, Bool.false_eq_true, if_false, plays_bind, Op.plays_attempt,
      plays_stopLine hfound.fits, then_ok]
    cases hline : stopLine s₁ n id with
    | error e =>
      refine (plays_concede children _ e ds s₁).mono fun r ds' s' hr => ?_
      obtain ⟨rfl, rfl, hs'⟩ := hr
      exact .inr ⟨id, s₁, [], hfound, by simp, .lineless hpending hline, by simp,
        fun _ => hs'.handles⟩
    | ok argv =>
      dsimp only
      rw [plays_bind, Op.plays_attempt, plays_iff_run]
      show Prog.Plays _ _ (Retry.bounded 2 _ _ _) _ _
      rw [Retry.bounded, if_neg (by decide)]
      refine plays_stopAttempts.mono fun r ds₂ s₂ hr => ?_
      obtain ⟨processes, rfl, hcourse, halone⟩ := hr
      have hstops := Stops.tried hpending hline hcourse
      cases r with
      | error e =>
        refine (then_ok _ _ _).2 ((plays_concede children _ e _ s₂).mono fun r ds' s' hr => ?_)
        obtain ⟨rfl, rfl, hs'⟩ := hr
        refine .inr ⟨id, s₁, processes, hfound, rfl, hstops,
          fun houtside => (halone houtside).pauses, fun houtside => ?_⟩
        rw [hs'.handles, (halone houtside).handles, handlesAfter_of_ne (conceded_error_ne e)]
      | ok stopped =>
        simp only [then_ok, plays_bind, plays_setStarted, plays_log, plays_pure]
        refine .inr ⟨id, s₁, processes, hfound, rfl, hstops,
          fun houtside => (halone houtside).pauses, fun houtside => ?_⟩
        obtain ⟨rfl, hne⟩ := hcourse.of_ok rfl
        obtain ⟨d, rest, rfl⟩ := List.exists_cons_of_ne_nil hne
        exact State.mark_of_handles id false (halone houtside).handles
  · rw [habsent]
    exact (then_error _ _ _).2
      (.inr ⟨id, s₁, [], hfound, by simp, .unclear he, by simp, fun _ => rfl⟩)

/-- Without a process the daemon counts as stopped only if there is nothing to stop. -/
theorem Stops.idle_of_nil {processes : List Dealing} {r : Except Fault Bool}
    (h : Stops s n id processes r) (hnil : processes = []) (hr : r = .ok true) : Idle s id := by
  cases h with
  | idle hidle => exact hidle
  | unclear he => exact absurd hr (by simp)
  | lineless hpending hline => exact absurd hr (conceded_error_ne _)
  | @tried argv processes r hpending hline hcourse =>
    cases r with
    | error e => exact absurd hr (conceded_error_ne e)
    | ok stopped => exact absurd hnil (hcourse.of_ok rfl).2

/-- No daemon was started with the handle of a workspace, and it has no status file. -/
def NoDaemon (s : State) (n : Nat) : Prop :=
  ∃ id s', Found s n id s' ∧ s'.started id = false ∧
    (s'.handle id).statusFileExists s.world = .ok false

/-- A daemon is said to be stopped without a process only if there is none. -/
theorem plays_stop (children : Children) (n : Nat) (ds : List Deed) (s : State) :
    (stop n).Plays children (fun r ds' _ => (∃ d, .started d ∈ ds') ∨ r ≠ .ok true ∨
      NoDaemon s n) ds s := by
  refine (plays_stop_told children n ds s).mono fun r ds' s' hr => ?_
  rcases hr with ⟨-, -, e, rfl, -⟩ | ⟨id, s₁, processes, hfound, rfl, htold⟩
  · exact .inr (.inl (by simp))
  · cases processes with
    | cons d processes => exact .inl ⟨d, by simp⟩
    | nil =>
      by_cases hr : r = .ok true
      · obtain ⟨hdown, hfile⟩ := htold.stops.idle_of_nil rfl hr
        exact .inr (.inr ⟨id, s₁, hfound, hdown, hfound.world ▸ hfile⟩)
      · exact .inr (.inl hr)

end Daemon

end Overseer
