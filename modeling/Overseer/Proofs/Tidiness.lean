import Overseer.Proofs.Marks

set_option autoImplicit false

/-! # Calls of the checker keep marks tidy

Everything that is done to run, stop or kill a daemon touches nothing but what its task may deal
with, and keeps marks tidy (`tidiness`). Each operation has one lemma. Between two attempts at a
command the mark may be down because of the recovery, also while the task pauses; then the daemon
that was stuck has been cleared away (`heeds_recoverStuck`), and the second attempt puts the mark up
again or is refused. -/

namespace Overseer

open History

/-- What tasks see to: they touch what they may deal with, and keep marks tidy. Whoever pauses may
also have cleared away a daemon. -/
def tidiness (t : Remit) : Rule where
  rely := State.HandlesLater
  write := State.Touches t
  duty h s what := ∀ k, t.key? = some k →
    Marked k (fun id => Excused k id h ∨ (∃ ms, what = .slept ms) ∧ h.Cleared k s) h s ∧
    ∀ c, what = .spawned c → c.starts = true →
      ∀ id, h.Fixed k id → s.Reserved k id → s.started id = true

/-- A state in which a registration is that of a workspace. -/
structure State.Bound (s : State) (k : String) (n : Nat) : Prop where
  coherent : s.Coherent
  sound : s.HandlesSound
  known : n < s.registrations.length
  key : s.key n = k

/-- Neither the core of the state nor the handles have changed. -/
structure State.Even (s s' : State) : Prop where
  core : s'.core = s.core
  handles : s'.handles = s.handles
  handleOf : s'.handleOf = s.handleOf

/-- What the task of a workspace has come to, from an earlier state of its own. -/
structure Past (k : String) (n : Nat) (h : History) (s : State) (h' : History) (s' : State) :
    Prop where
  suffix : h <:+ h'
  bound : s'.Bound k n
  onward : s.Onward s'
  later : s.HandlesLater s'

section States

variable {s s' s'' : State} {k : String} {n id : Nat} {t : Remit} {h h' h'' : History}

namespace State

theorem Even.refl (s : State) : s.Even s := ⟨rfl, rfl, rfl⟩

theorem Even.trans (h : s.Even s') (h' : s'.Even s'') : s.Even s'' :=
  ⟨h'.core.trans h.core, h'.handles.trans h.handles, h'.handleOf.trans h.handleOf⟩

theorem even_withWorld (s : State) (w : World) : s.Even { s with world := w } := ⟨rfl, rfl, rfl⟩

theorem even_slept (s : State) (ms : Int) : s.Even (s.slept ms) := ⟨rfl, rfl, rfl⟩

theorem even_record (s : State) (r : LogRecord) : s.Even (s.record r) := even_withWorld s _

theorem Logged.even (h : s.Logged s') : s.Even s' := ⟨h.core, h.handles, h.handleOf⟩

theorem Even.later (h : s.Even s') : s.HandlesLater s' := .of_eq h.handles h.handleOf

theorem Even.started (h : s.Even s') (id : Nat) : s'.started id = s.started id := by
  simp only [State.started, handle, h.handles]

theorem Even.reserved (h : s.Even s') (hid : s'.Reserved k id) : s.Reserved k id := by
  rw [Reserved, h.handles, h.handleOf] at hid
  exact hid

theorem Bound.onward (h : s.Bound k n) (hon : s.Onward s') (hlater : s.HandlesLater s') :
    s'.Bound k n :=
  ⟨hon.2, hlater.sound h.sound, Nat.lt_of_lt_of_le h.known hon.1.length,
    (hon.1.key n h.known).trans h.key⟩

theorem Bound.core (h : s.Bound k n) (hcore : s'.core = s.core) (hlater : s.HandlesLater s') :
    s'.Bound k n :=
  h.onward (.of_core hcore h.coherent) hlater

theorem Bound.even (h : s.Bound k n) (heven : s.Even s') : s'.Bound k n :=
  h.core heven.core heven.later

end State

theorem Past.of_core (hs : s.Bound k n) (hcore : s'.core = s.core) (hlater : s.HandlesLater s') :
    Past k n h s h s' :=
  ⟨List.suffix_refl h, hs.core hcore hlater, .of_core hcore hs.coherent, hlater⟩

theorem Past.of_even (hs : s.Bound k n) (heven : s.Even s') : Past k n h s h s' :=
  .of_core hs heven.core heven.later

theorem Past.refl (hs : s.Bound k n) : Past k n h s h s := .of_even hs (.refl s)

theorem Past.trans (hp : Past k n h s h' s') (hp' : Past k n h' s' h'' s'') :
    Past k n h s h'' s'' :=
  ⟨hp.suffix.trans hp'.suffix, hp'.bound, hp.onward.trans hp'.onward, hp.later.trans hp'.later⟩

theorem Past.even (hp : Past k n h s h' s') (heven : s'.Even s'') : Past k n h s h' s'' :=
  hp.trans (.of_even hp.bound heven)

theorem Past.mark (hp : Past k n h s h' s') (id : Nat) (b : Bool) :
    Past k n h s h' (s'.mark id b) :=
  hp.trans (.of_core hp.bound rfl (State.handlesLater_mark s' id b))

theorem History.Tidy.even (hh : Tidy k h s) (heven : s.Even s') : Tidy k h s' :=
  hh.later heven.later heven.started

@[simp] theorem tidiness_write_record (r : LogRecord) :
    (tidiness t).write s (s.record r) ↔ True :=
  iff_true_intro (State.Touch.log t s r).single

theorem Workspace.world_environment (ws : Workspace) (w : World) :
    (ws.environment.exec w).2 = w ∨ ∃ r, (ws.environment.exec w).2 = w.record r := by
  have hfile : (ws.fileItems.exec w).2 = w ∨ ∃ r, (ws.fileItems.exec w).2 = w.record r := by
    rw [Daemon.exec_fileItems]
    split
    · exact .inl rfl
    · exact .inl rfl
    · split
      · exact .inl rfl
      · exact .inr ⟨_, rfl⟩
      · exact .inl rfl
  rw [Daemon.exec_environment]
  split
  · next heq => rwa [heq] at hfile
  · next heq => rwa [heq] at hfile

@[simp] theorem tidiness_write_environment (ws : Workspace) :
    (tidiness t).write s { s with world := (ws.environment.exec s.world).2 } ↔ True := by
  refine iff_true_intro ?_
  rcases ws.world_environment s.world with hworld | ⟨r, hworld⟩
  · rw [hworld]
    exact .refl
  · rw [hworld]
    exact (State.Touch.log t s r).single

@[simp] theorem tidiness_write_slept (ms : Int) : (tidiness t).write s (s.slept ms) ↔ True :=
  iff_true_intro (State.Touch.aside t s _ _ _ _ _).single

/-- Whoever keeps marks tidy does its duty, if a process that is to leave a daemon running is
started with the mark up. -/
theorem tidiness_duty_of_up (ht : t.key? = some k) (hh : Tidy k h s) {what : Happening}
    (hspawn : ∀ c, what = .spawned c → c.starts = true →
      ∀ id, h.Fixed k id → s.Reserved k id → s.started id = true) :
    (tidiness t).duty h s what := by
  intro k' hk'
  obtain rfl := Option.some.inj (ht.symm.trans hk')
  exact ⟨hh.imp fun _ => .inl, hspawn⟩

/-- Whoever waits for something else than a process, or ends, has to keep marks tidy. -/
theorem tidiness_duty (ht : t.key? = some k) (hh : Tidy k h s) {what : Happening}
    (hwhat : ∀ c, what ≠ .spawned c) : (tidiness t).duty h s what :=
  tidiness_duty_of_up ht hh fun c hc => absurd hc (hwhat c)

/-- A process that leaves no daemon running may be started whatever the mark is. -/
theorem tidiness_duty_spawned (ht : t.key? = some k) (hh : Tidy k h s) {c : Call}
    (hc : c.starts = false) : (tidiness t).duty h s (.spawned c) := by
  refine tidiness_duty_of_up ht hh ?_
  rintro _ ⟨⟩ hstarts
  exact absurd (hc.symm.trans hstarts) (by simp)

end States

namespace Daemon

open Op

variable {i : TaskId} {h : History} {s s' : State} {k : String} {n id : Nat} {t : Remit}

/-! ## Handles -/

/-- The handle of a workspace has been looked up, which puts a new one on file at most. -/
structure Entered (s : State) (k : String) (n id : Nat) (s' : State) : Prop where
  core : s'.core = s.core
  later : s.HandlesLater s'
  marks : ∀ id, s'.started id = s.started id
  entry : s'.handleOf.get? k = some id
  fits : Fits s' n id
  /-- A handle that fits is used. -/
  same : ∀ id', Fits s n id' → s' = s

theorem Entered.past (hid : Entered s k n id s') (hs : s.Bound k n) : Past k n h s h s' :=
  .of_core hs hid.core hid.later

theorem Entered.tidy (hid : Entered s k n id s') (hh : Tidy k h s) : Tidy k h s' :=
  hh.later hid.later hid.marks

theorem Entered.known (hid : Entered s k n id s') (hs : s.Bound k n) : Familiar k id h s' :=
  ⟨(hid.later.sound hs.sound).mine hid.entry, .inl hid.entry⟩

theorem Entered.eq {id' : Nat} (hid : Entered s k n id s') (hid' : Fits s n id')
    (hkey : s.key n = k) : id' = id := by
  have hentry := hid.entry
  rw [hid.same id' hid', ← hkey, hid'.entry] at hentry
  exact Option.some.inj hentry

/-- Looking up the handle of a workspace puts a new one on file at most. -/
theorem heeds_handle {Q : Except Fault Nat → History → State → Prop} (hs : s.Bound k n)
    (ht : t.key? = some k) (hok : ∀ id s', Entered s k n id s' → Q (.ok id) h s')
    (herror : ∀ e, Q (.error e) h s) : (handle n).Heeds (tidiness t) i Q h s := by
  have hkey : (s.workspace n).key = k := hs.key
  rw [handle]
  simp only [heeds_bind, heeds_workspace, heeds_look, hence_ok]
  cases hconfigured : (s.workspace n).statusFile s.world with
  | error e => exact (hence_error _ _ _).2 (herror e)
  | ok configured =>
    simp only [hence_ok, heeds_bind, heeds_state]
    -- a handle that does not suit the settings is treated as if there were none
    have hnew : (∀ id, s.handleOf.get? k = some id → ¬ State.Suits configured (s.handle id)) →
        Hence (tidiness t) i (fun h => do
          Op.modify fun s' => { s' with
            handles := s'.handles ++ [h]
            handleOf := s'.handleOf.insert k s.handles.length }
          pure s.handles.length) Q
          (Handle.ofRoot s.world s.daemons.identity (s.workspace n).root configured) h s := by
      intro hmiss
      cases hh : Handle.ofRoot s.world s.daemons.identity (s.workspace n).root configured with
      | error e => exact (hence_error _ _ _).2 (herror e)
      | ok h₀ =>
        simp only [hence_ok, heeds_bind, heeds_modify, heeds_pure]
        have hentry : (s.withNewHandle k h₀).handleOf.get? k = some s.handles.length :=
          (State.handleOf_withNewHandle s k h₀ k).trans (if_pos rfl)
        refine ⟨(State.Touch.file ht hs.known hs.key hconfigured hmiss hh).single,
          hok _ _ ⟨rfl, State.handlesLater_withNewHandle s k h₀, fun id => ?_, hentry,
            ⟨by rw [← hentry, ← hs.key]; rfl, configured, hconfigured, ?_⟩, ?_⟩⟩
        · rcases Nat.lt_trichotomy id s.handles.length with hlt | rfl | hgt
          · exact congrArg Handle.started (State.handle_withNewHandle k h₀ hlt)
          · have hdown : h₀.started = false := started_of_ofRoot hh
            rw [State.started_of_length_le (Nat.le_refl _)]
            exact (congrArg Handle.started (State.handle_withNewHandle_self s k h₀)).trans hdown
          · rw [State.started_of_length_le (Nat.le_of_lt hgt)]
            refine State.started_of_length_le (s := s.withNewHandle k h₀) ?_
            rw [State.length_withNewHandle]
            exact hgt
        · rintro path ⟨⟩
          exact (congrArg Handle.statusFile (State.handle_withNewHandle_self s k h₀)).trans
            (follows_ofRoot hh)
        · intro id' hfits
          obtain ⟨configured', hconfigured', hsuits⟩ := hfits.status
          obtain rfl := Except.ok.inj (hconfigured'.symm.trans hconfigured)
          exact absurd hsuits (hmiss id' (hs.key ▸ hfits.entry))
    have hsame : ∀ id, s.handleOf.get? k = some id → State.Suits configured (s.handle id) →
        Q (.ok id) h s := fun id hid hsuits => hok id s
      ⟨rfl, .refl s, fun _ => rfl, hid, ⟨hs.key ▸ hid, configured, hconfigured, hsuits⟩,
        fun _ _ => rfl⟩
    rw [hkey]
    cases hid : s.handleOf.get? k with
    | none =>
      rw [heeds_bind, heeds_look]
      exact hnew (by simp [hid])
    | some id =>
      cases configured with
      | none =>
        simp only [if_true, heeds_pure]
        exact hsame id hid (by simp [State.Suits])
      | some path =>
        by_cases hpath : (s.handle id).statusFile = path
        · simp only [hpath, decide_true, if_true, heeds_pure]
          exact hsame id hid (by simpa [State.Suits] using hpath)
        · simp only [hpath, decide_false, Bool.false_eq_true, if_false, heeds_bind, heeds_look]
          refine hnew fun id' hid' hsuits => hpath ?_
          obtain rfl := Option.some.inj (hid.symm.trans hid')
          exact hsuits path rfl

/-- The command line of a daemon command gives that command. -/
theorem heeds_argv {Q : Except Fault (List Json) → History → State → Prop} {command : String}
    {args : List Json} (hs : s.Bound k n) (ht : t.key? = some k)
    (hok : ∀ id argv s', Entered s k n id s' →
      (∀ c : Call, words argv = .ok c.argv → c.command? = some command) → Q (.ok argv) h s')
    (herror : ∀ e s', Past k n h s h s' → (∀ id, s'.started id = s.started id) →
      Q (.error e) h s') : (argv n command args).Heeds (tidiness t) i Q h s := by
  rw [argv, heeds_bind]
  refine heeds_handle hs ht (fun id s' hid => ?_) fun e =>
    (hence_error _ _ _).2 (herror e s (.refl hs) fun _ => rfl)
  simp only [hence_ok, heeds_bind, heeds_state, heeds_look]
  cases hargv : (s'.workspace n).daemonArgv s'.world (s'.handle id) command args with
  | error e => exact herror e s' (hid.past hs) hid.marks
  | ok argv => exact hok id argv s' hid fun c hc => command?_of_daemonArgv hargv hc

/-! ## One call -/

/-- A process has come back: it was refused at once, or it ended while others went on. -/
inductive Back (s : State) : Except Fault Ended → State → State → Prop
  | refused (e : Fault) : Back s (.error e) s s
  | ended (ended : Ended) (s₁ s₂ : State) (hon : s.Onward s₂) (hlater : s.HandlesLater s₂) :
    Back s (.ok ended) s₁ s₂

theorem Back.later {answer : Except Fault Ended} {s₁ s₂ : State} (hback : Back s answer s₁ s₂) :
    s.HandlesLater s₂ := by
  cases hback with
  | refused e => exact .refl _
  | ended ended s₁ s₂ hon hlater => exact hlater

theorem Back.onward {answer : Except Fault Ended} {s₁ s₂ : State} (hback : Back s answer s₁ s₂)
    (hs : s.Coherent) : s.Onward s₂ := by
  cases hback with
  | refused e => exact .refl hs
  | ended ended s₁ s₂ hon hlater => exact hon

theorem past_back {c : Call} {answer : Except Fault Ended} {s₁ s₂ s₃ : State} (hs : s.Bound k n)
    (heven : s.Even s₁) (hback : Back s₁ answer s₂ s₃) (heven' : s₃.Even s') :
    Past k n h s (h.back i c answer s₁ s₂ s₃) s' := by
  have hon := hback.onward (hs.even heven).coherent
  have hs₃ : s₃.Bound k n := (hs.even heven).onward hon hback.later
  exact ((Past.of_even hs heven).trans ⟨suffix_back i c answer s₁ s₂ s₃ h, hs₃, hon,
    hback.later⟩).trans (.of_even hs₃ heven')

theorem tidy_back {c : Call} {answer : Except Fault Ended} {s₁ s₂ s₃ : State}
    (heven : s₃.Even s') : Tidy k (h.back i c answer s₁ s₂ s₃) s' :=
  (tidy_resumed i _ s₃).even heven

/-- A handle that was known when a process was started has been seen when it comes back. -/
theorem seen_back {c : Call} {answer : Except Fault Ended} {s₁ s₂ s₃ : State}
    (hid : Familiar k id h s) (hs : s.Even s₁) : (h.back i c answer s₁ s₂ s₃).Seen k id := by
  rcases hid.entry with hentry | hseen
  · refine ⟨⟨i, .spawned c, s₁⟩, by simp, rfl, ?_⟩
    rw [← hentry, ← hs.handleOf]
  · exact hseen.mono (suffix_back i c answer s₁ s₂ s₃ h)

theorem heeds_startChecker {Q : Except Fault Ended → History → State → Prop} {c : Call}
    (hduty : (tidiness t).duty h s (.spawned c))
    (hok : ∀ ended s₁ s₂, Back s (.ok ended) s₁ s₂ →
      Q (.ok ended) (h.back i c (.ok ended) s s₁ s₂) s₂)
    (herror : ∀ e e' s', s.Even s' → (∀ command, verdict command ⟨c, s, .error e⟩ = .error e') →
      Q (.error e') (h.back i c (.error e) s s s) s') :
    (startChecker c).Heeds (tidiness t) i Q h s := by
  rw [startChecker]
  simp only [heeds_bind, Op.heeds_attempt, heeds_spawn]
  refine ⟨hduty, fun e => ?_, fun ended s₁ s₂ hon hlater => ?_⟩
  · simp only [hence_ok]
    split
    · next hos =>
      simp only [heeds_bind, heeds_log, tidiness_write_record, true_and, hence_ok, heeds_throw]
      refine herror e _ _ (State.even_record s _) fun command => ?_
      simp only [verdict, hos, if_true]
    · next hos =>
      rw [heeds_throw]
      refine herror e e s (.refl s) fun command => ?_
      simp only [verdict, hos, Bool.false_eq_true, if_false]
  · simp only [hence_ok, heeds_pure]
    exact hok ended s₁ s₂ (.ended ended s₁ s₂ hon hlater)

/-- A call of the checker starts at most one process; its result is what the process says. -/
theorem heeds_invoke {Q : Except Fault RunResult → History → State → Prop} {argv : List Json}
    {command : String}
    (hduty : ∀ c s', words argv = .ok c.argv → s.Logged s' →
      (tidiness t).duty h s' (.spawned c))
    (hnone : ∀ e s', isFailure e = false → s.Logged s' → Q (.error e) h s')
    (hback : ∀ c answer s₁ s₂ s₃ s', words argv = .ok c.argv → s.Logged s₁ →
      Back s₁ answer s₂ s₃ → s₃.Even s' →
      Q (verdict command ⟨c, s₁, answer⟩) (h.back i c answer s₁ s₂ s₃) s') :
    (invoke n argv command).Heeds (tidiness t) i Q h s := by
  rw [invoke]
  simp only [heeds_bind, heeds_workspace, heeds_look, hence_ok]
  cases hcwd : (s.workspace n).cwd s.world with
  | error e => exact (hence_error _ _ _).2 (hnone e s (isFailure_of_cwd hcwd) (.refl s))
  | ok cwd =>
    have hlogged : s.Logged { s with world := ((s.workspace n).environment.exec s.world).2 } :=
      State.logged_withWorld Workspace.appended_environment
    simp only [hence_ok, heeds_bind, heeds_act, tidiness_write_environment, true_and]
    cases henv : ((s.workspace n).environment.exec s.world).1 with
    | error e =>
      exact (hence_error _ _ _).2 (hnone e _ (isFailure_of_environment henv) hlogged)
    | ok environment =>
      simp only [hence_ok, heeds_bind, heeds_look]
      cases hwords : words argv with
      | error e => exact (hence_error _ _ _).2 (hnone e _ (isFailure_of_words hwords) hlogged)
      | ok line =>
        simp only [hence_ok, heeds_bind, heeds_log, tidiness_write_record, true_and]
        generalize hs₁ : State.record _ _ = s₁
        have hs : s.Logged s₁ := hs₁ ▸ hlogged.trans (State.noted_record _ _).logged
        refine heeds_startChecker (hduty _ s₁ hwords hs) (fun ended s₂ s₃ hended => ?_)
          fun e e' s' hs' hverdict => ?_
        · have hsaid : ∀ s', s₃.Even s' →
              Q (verdict command ⟨⟨line, some cwd, some environment⟩, s₁, .ok ended⟩)
                (h.back i ⟨line, some cwd, some environment⟩ (.ok ended) s₁ s₂ s₃) s' :=
            fun s' hs' => hback _ _ s₁ s₂ s₃ s' hwords hs hended hs'
          simp only [verdict, RunResult.judge] at hsaid
          simp only [hence_ok]
          split
          · next hnothing =>
            simp only [hnothing, Outcome.isSuccess, if_true] at hsaid
            simp only [hnothing, heeds_bind, heeds_log, tidiness_write_record, true_and, hence_ok,
              heeds_pure]
            exact hsaid _ (State.even_record s₃ _)
          · next hsomething =>
            simp only [hsomething, if_false] at hsaid
            split
            · next hsuccess =>
              simp only [hsuccess, if_true] at hsaid
              split
              · simp only [heeds_bind, heeds_log, tidiness_write_record, true_and, hence_ok,
                  heeds_pure]
                exact hsaid _ ((State.even_record s₃ _).trans (State.even_record _ _))
              · simp only [heeds_bind, heeds_log, tidiness_write_record, true_and, hence_ok,
                  heeds_pure]
                exact hsaid _ (State.even_record s₃ _)
            · next hfailed =>
              simp only [hfailed, Bool.false_eq_true, if_false] at hsaid
              simp only [heeds_bind, heeds_log, tidiness_write_record, true_and, hence_ok,
                heeds_throw]
              exact hsaid _ (State.even_record s₃ _)
        · rw [hence_error, ← hverdict command]
          exact hback _ _ s₁ s₁ s₁ s' hwords hs (.refused e) hs'

/-- Only a process that could not be started is reported as missing. -/
theorem not_missing_of_ended {c : Call} {ended : Ended} {command : String} {e : Fault}
    (he : verdict command ⟨c, s, .ok ended⟩ = .error e) :
    e.cls.isA .executableNotFound = false := by
  unfold verdict at he
  dsimp only at he
  split at he
  · exact absurd he (by simp)
  · cases he
    cases Outcome.classify ended command <;> rfl

theorem heeds_setStarted {Q : Except Fault Unit → History → State → Prop} (id : Nat) (b : Bool) :
    (setStarted id b).Heeds (tidiness t) i Q h s ↔
      s.Touches t (s.mark id b) ∧ Q (.ok ()) h (s.mark id b) :=
  heeds_modify _ Q

/-- What an attempt needs: marks that are down have an excuse, or the command is one that leaves a
daemon running and is repeated. -/
abbrev Poised (k command : String) (h : History) (s : State) : Prop :=
  Marked k (fun id => Excused k id h ∨ Workspace.startsDaemon command = true ∧ h.Cleared k s) h s

/-- What the end of an attempt is like. -/
structure Attempt (k : String) (n id : Nat) (h : History) (s : State) (h' : History) (s' : State) :
    Prop where
  past : Past k n h s h' s'
  tidy : Tidy k h' s'
  mine : s'.Mine k id
  seen : h'.Seen k id

/-- The rest of an attempt, from the state in which the command is announced. -/
theorem heeds_announced {Q : Except Fault RunResult → History → State → Prop} {argv : List Json}
    {command : String} {s₀ : State} (hpast : Past k n h s h s₀) (ht : t.key? = some k)
    (hid : Familiar k id h s₀)
    (hline : ∀ c : Call, words argv = .ok c.argv → c.command? = some command)
    (hpoised : Poised k command h s)
    (hkept : s.Kept s₀) (hreserved : ∀ id', s₀.Reserved k id' → s.Reserved k id')
    (htidy : Tidy k h s₀)
    (hup : Workspace.startsDaemon command = true → s₀.started id = true)
    (hnone : ∀ e s', isFailure e = false → Past k n h s h s' → Tidy k h s' → Q (.error e) h s')
    (hback : ∀ c answer s₁ s₂ s₃ s', c.command? = some command →
      Attempt k n id h s (h.back i c answer s₁ s₂ s₃) s' →
      Q (verdict command ⟨c, s₁, answer⟩) (h.back i c answer s₁ s₂ s₃) s') :
    (do
      match ← Op.attempt (invoke n argv command) with
      | .ok r => return r
      | .error e =>
        if e.cls.isA .executableNotFound then setStarted id (s.started id)
        throw e : Op RunResult).Heeds (tidiness t) i Q h s₀ := by
  rw [heeds_bind, Op.heeds_attempt]
  refine heeds_invoke (fun c s' hc hlogged => ?_) (fun e s' hfailure hlogged => ?_)
    fun c answer s₁ s₂ s₃ s' hc hlogged hcame heven' => ?_
  · refine tidiness_duty_of_up ht (htidy.even hlogged.even) ?_
    rintro _ ⟨⟩ hstarts id' hfixed hid'
    obtain rfl := hid.eq hfixed (hlogged.even.reserved hid')
    rw [hlogged.even.started]
    exact hup (by simpa [Call.starts, hline c hc] using hstarts)
  · rw [hence_ok]
    have hmissing : e.cls.isA .executableNotFound = false := by
      by_contra hmissing
      rw [isFailure_of_isA_executableNotFound (by simpa using hmissing)] at hfailure
      exact absurd hfailure (by simp)
    simp only [hmissing, Bool.false_eq_true, if_false, heeds_throw]
    exact hnone e s' hfailure (hpast.even hlogged.even) (htidy.even hlogged.even)
  · have heven := hlogged.even
    have hpast' : Past k n h s (h.back i c answer s₁ s₂ s₃) s' :=
      hpast.trans (past_back hpast.bound heven hcame heven')
    have hmine : s'.Mine k id :=
      ((heven.later.trans hcame.later).trans heven'.later).mine hid.mine
    have hseen : (h.back i c answer s₁ s₂ s₃).Seen k id := seen_back hid heven
    have hsaid := hback c answer s₁ s₂ s₃ s' (hline c hc)
      ⟨hpast', tidy_back heven', hmine, hseen⟩
    cases hverdict : verdict command ⟨c, s₁, answer⟩ with
    | ok r =>
      rw [hverdict] at hsaid
      simp only [hence_ok, heeds_pure]
      exact hsaid
    | error e =>
      rw [hence_ok]
      dsimp only
      split
      · next hmissing =>
        simp only [heeds_bind, heeds_setStarted, hence_ok, heeds_throw]
        refine ⟨(State.Touch.mark ht hmine _).single, ?_⟩
        -- the process was refused, so nothing has happened since the command was announced
        cases hcame with
        | ended ended _ _ _ _ =>
          rw [not_missing_of_ended hverdict] at hmissing
          exact absurd hmissing (by simp)
        | refused e₀ =>
          have hlater := State.handlesLater_mark s' id (s.started id)
          rw [← hverdict]
          refine hback c _ s₁ s₁ s₁ _ (hline c hc) ⟨hpast'.mark id _,
            ⟨?_, fun id' hfixed hid' hdown => ?_⟩, hlater.mine hmine, hseen⟩
          · rw [State.length_mark]
            exact (tidy_back (k := k) (h := h) (i := i) heven').length
          · rw [State.reserved_mark] at hid'
            obtain rfl := Familiar.eq ⟨hmine, .inr hseen⟩ hfixed hid'
            rw [State.started_mark_self _ hmine.1] at hdown
            have hfixed' := hfixed.of_suffix (suffix_back i c (.error e₀) s₁ s₁ s₁ h)
            have hid₀ := hreserved id (heven.reserved (heven'.reserved hid'))
            rcases hpoised.marks id hfixed' hid₀ hdown with hexcused | ⟨hstarts, hcleared⟩
            · exact .refused i c e₀ s₁ hexcused
            · exact .repeated i c e₀ s₁ (by simpa [Call.starts, hline c hc] using hstarts)
                ⟨hcleared.spared, hcleared.gone.kept (hkept.trans hlogged.toKept)⟩
      · rw [heeds_throw, ← hverdict]
        exact hsaid

/-- One attempt at a command. -/
theorem heeds_attemptCommand {Q : Except Fault RunResult → History → State → Prop}
    {argv : List Json} {command : String} (hs : s.Bound k n) (ht : t.key? = some k)
    (hid : Familiar k id h s)
    (hline : ∀ c : Call, words argv = .ok c.argv → c.command? = some command)
    (hpoised : Poised k command h s)
    (hnone : ∀ e s', isFailure e = false → Past k n h s h s' → Tidy k h s' → Q (.error e) h s')
    (hback : ∀ c answer s₁ s₂ s₃ s', c.command? = some command →
      Attempt k n id h s (h.back i c answer s₁ s₂ s₃) s' →
      Q (verdict command ⟨c, s₁, answer⟩) (h.back i c answer s₁ s₂ s₃) s') :
    (Daemon.attempt n id argv command).Heeds (tidiness t) i Q h s := by
  rw [Daemon.attempt]
  simp only [heeds_bind, heeds_state, hence_ok]
  by_cases hstarts : Workspace.startsDaemon command = true
  · have hlater := State.handlesLater_mark s id true
    simp only [hstarts, if_true, heeds_bind, heeds_setStarted, hence_ok]
    refine ⟨(State.Touch.mark ht hid.mine true).single, ?_⟩
    rw [← heeds_bind]
    exact heeds_announced (.of_core hs rfl hlater) ht (hid.later (List.suffix_refl _) hlater .inl)
      hline hpoised (State.kept_setStarted s id true) (fun id' => State.reserved_mark.1)
      (hid.marked hpoised.length _)
      (fun _ => State.started_mark_self true hid.mine.1) hnone hback
  · have htidy : Tidy k h s := hpoised.imp fun id => by simp [hstarts]
    simp only [hstarts, Bool.false_eq_true, if_false, heeds_bind]
    rw [← heeds_bind]
    exact heeds_announced (.refl hs) ht hid hline hpoised (.refl s) (fun _ h => h) htidy
      (fun h => absurd h hstarts) hnone hback

/-! ## Repeated attempts -/

/-- Attempts that heed a rule from wherever what is done between them has left off. -/
theorem heeds_attemptsFrom {α : Type} {R : Rule} {P : Nat → History → State → Prop}
    {Q : Except Fault α → History → State → Prop} {retries : Fault → Bool}
    {attempt : Nat → Prog (Except Fault α)} {between : Nat → Fault → Prog (Except Fault Unit)}
    (hattempt : ∀ number h s, P number h s → (attempt number).Heeds R i (fun r h s => Q r h s ∧
      ∀ e, r = .error e → retries e = true → (between number e).Heeds R i (fun r h s =>
        r.casesOn (fun e => Q (.error e) h s) fun _ => P (number + 1) h s) h s) h s)
    (left number : Nat) (hP : P number h s) :
    (Retry.attemptsFrom retries attempt between left number).Heeds R i Q h s := by
  induction left generalizing number h s with
  | zero => exact (hattempt number h s hP).mono fun r h s hr => hr.1
  | succ left ih =>
    rw [Retry.attemptsFrom]
    simp only [Prog.heeds_seq]
    refine (hattempt number h s hP).mono fun r h s hr => ?_
    obtain ⟨hQ, hbetween⟩ := hr
    cases r with
    | ok a => exact hQ
    | error e =>
      simp only
      split
      · next hretries =>
        simp only [Prog.heeds_seq]
        refine (hbetween e rfl hretries).mono fun r h s hr => ?_
        cases r with
        | ok u => exact ih (number + 1) hr
        | error e => exact hr
      · exact hQ

/-- What is done between two attempts, with a recovery or without one, and with a pause or without
one. -/
theorem heeds_between {P Q : Except Fault Unit → History → State → Prop}
    {recover : Option (Fault → Op Unit)} {bound delay : Int} {number : Nat} {e : Fault}
    (hrecover : ∀ s', s.Even s' → recover.elim (P (.ok ()) h s') fun f =>
      (f e).Heeds (tidiness t) i P h s')
    (hQ : ∀ r h s, P r h s → Q r h s)
    (hpause : ∀ h s, P (.ok ()) h s → (tidiness t).duty h (s.slept delay) (.slept delay) ∧
      ∀ s', (s.slept delay).Onward s' → (s.slept delay).HandlesLater s' →
        Q (.ok ()) (⟨i, .resumed, s'⟩ :: ⟨i, .slept delay, s.slept delay⟩ :: h) s') :
    (between recover bound delay number e).Heeds (tidiness t) i Q h s := by
  have hsleep : ∀ h s, P (.ok ()) h s → (do
      if delay ≠ 0 then (do let _ ← (Op.sleep delay).run : Prog Unit)
      return .ok () : Prog (Except Fault Unit)).Heeds (tidiness t) i Q h s := by
    intro h s hP
    split
    · simp only [Prog.heeds_seq, ← heeds_iff_run, heeds_sleep, tidiness_write_slept, true_and]
      exact hpause h s hP
    · exact hQ _ h s hP
  have hnoted := hrecover _ (State.even_record s ⟨.info, .retry, Retry.note number bound e⟩)
  rw [between, Retry.pause]
  simp only [Prog.heeds_seq, ← heeds_iff_run, heeds_log, tidiness_write_record, true_and,
    Prog.heeds_return]
  cases recover with
  | none => exact hsleep h _ hnoted
  | some f =>
    simp only [Option.map_some, Prog.heeds_seq, ← heeds_iff_run]
    refine Heeds.mono hnoted fun r h s hr => ?_
    cases r with
    | error e => exact hQ _ h s hr
    | ok u => exact hsleep h s hr

/-- A task that has paused is where it was. -/
theorem past_slept {ms : Int} (hs : s.Bound k n) (hon : (s.slept ms).Onward s')
    (hlater : (s.slept ms).HandlesLater s') :
    Past k n h s (⟨i, .resumed, s'⟩ :: ⟨i, .slept ms, s.slept ms⟩ :: h) s' := by
  have hslept := State.even_slept s ms
  exact (Past.of_even hs hslept).trans ⟨⟨[_, _], rfl⟩, (hs.even hslept).onward hon hlater, hon,
    hlater⟩

/-- A handle that was known before a pause has been seen after it. -/
theorem familiar_slept {ms : Int} (hid : Familiar k id h s)
    (hlater : (s.slept ms).HandlesLater s') :
    Familiar k id (⟨i, .resumed, s'⟩ :: ⟨i, .slept ms, s.slept ms⟩ :: h) s' := by
  refine ⟨hlater.mine hid.mine, .inr ?_⟩
  rcases hid.entry with hentry | hseen
  · exact ⟨⟨i, .slept ms, s.slept ms⟩, by simp, rfl, hentry⟩
  · exact hseen.mono ⟨[_, _], rfl⟩

/-! ## Commands -/

/-- Before a command is attempted its command line is worked out and the directories of the
handle are made. -/
theorem heeds_give {Q : Except Fault RunResult → History → State → Prop} {command : String}
    {args : List Json} {bound : Int} {recover : Option (Fault → Op Unit)} (hs : s.Bound k n)
    (ht : t.key? = some k) (htidy : Tidy k h s)
    (hattempts : ∀ id argv delay s', Past k n h s h s' → Tidy k h s' → Familiar k id h s' →
      (∀ id', Fits s n id' → id' = id) →
      (∀ c : Call, words argv = .ok c.argv → c.command? = some command) →
      Prog.Heeds (tidiness t) i Q (Retry.bounded bound isStuck
        (fun _ => (Daemon.attempt n id argv command).run) (between recover bound delay)) h s')
    (herror : ∀ e s', Past k n h s h s' → Tidy k h s' → Q (.error e) h s') :
    (give n command args bound recover).Heeds (tidiness t) i Q h s := by
  rw [give, heeds_bind]
  refine heeds_argv hs ht (fun id argv s₁ hid hline => ?_) fun e s' hpast hmarks =>
    (hence_error _ _ _).2 (herror e s' hpast (htidy.later hpast.later hmarks))
  have hpast := hid.past (h := h) hs
  simp only [hence_ok, heeds_bind]
  refine heeds_handle hpast.bound ht (fun id' s₂ hid' => ?_) fun e =>
    (hence_error _ _ _).2 (herror e s₁ hpast (hid.tidy htidy))
  -- the handle has just been looked up
  obtain rfl := hid'.same id hid.fits
  obtain rfl := hid'.eq hid.fits hpast.bound.key
  have heven := State.even_withWorld s₂ ((s₂.handle id).ensureDirectories.exec s₂.world).2
  simp only [hence_ok, withHandle, heeds_bind, heeds_state, heeds_act]
  refine ⟨(State.Touch.directories ht hid.entry).single, ?_⟩
  cases ((s₂.handle id).ensureDirectories.exec s₂.world).1 with
  | error e =>
    exact (hence_error _ _ _).2 (herror e _ (hpast.even heven) ((hid.tidy htidy).even heven))
  | ok u =>
    simp only [hence_ok, heeds_bind, heeds_state]
    rw [heeds_iff_run]
    exact hattempts id argv _ _ (hpast.even heven) ((hid.tidy htidy).even heven)
      ((hid.known hs).later (List.suffix_refl h) heven.later .inl)
      (fun id' hfits => hid.eq hfits hs.key) hline

/-- A daemon that was killed is gone; one that was found stuck may be spared. -/
theorem heeds_kill (hs : s.Bound k n) (ht : t.key? = some k) (htidy : Tidy k h s) :
    (kill n).Heeds (tidiness t) i (fun r h' s' => Past k n h s h' s' ∧ Tidy k h' s' ∧
      (r = .ok false → h.Wedged → h'.Spared)) h s := by
  -- a fault that is a failure of the checker is only noted
  have hfail : ∀ e h' s', Past k n h s h' s' → Tidy k h' s' →
      (isFailure e = true → h.Wedged → h'.Spared) →
      (if isFailure e then do
          let ws ← Op.workspace n
          log .warning .adapter s!"Failed to kill daemon for {ws.root.text}: {e.message}"
          return false
        else throw e : Op Bool).Heeds (tidiness t) i
          (fun r h' s' => Past k n h s h' s' ∧ Tidy k h' s' ∧
            (r = .ok false → h.Wedged → h'.Spared)) h' s' := by
    intro e h' s' hpast htidy' hspared
    split
    · next hfailure =>
      simp only [heeds_bind, heeds_workspace, hence_ok, heeds_log, tidiness_write_record, true_and,
        heeds_pure]
      exact ⟨hpast.even (State.even_record s' _), htidy'.even (State.even_record s' _),
        fun _ => hspared hfailure⟩
    · rw [heeds_throw]
      exact ⟨hpast, htidy', fun h => absurd h (by simp)⟩
  rw [kill, heeds_bind]
  refine heeds_handle hs ht (fun id s₁ hid => ?_) fun e =>
    (hence_error _ _ _).2 ⟨.refl hs, htidy, fun h => absurd h (by simp)⟩
  have hpast := hid.past (h := h) hs
  simp only [hence_ok, heeds_bind, Op.heeds_attempt]
  refine heeds_give hpast.bound ht (hid.tidy htidy)
    (fun id' argv delay s₂ hpast₂ htidy₂ hknown hfits hline => ?_)
    fun e s' hpast' htidy' => hfail e h s' (hpast.trans hpast') htidy' fun _ => .untried
  obtain rfl := hfits id hid.fits
  -- with a bound of one there is one attempt, and nothing between attempts
  rw [Retry.bounded, if_neg (by decide)]
  show Prog.Heeds _ _ _ (Daemon.attempt n id argv "kill").run _ _
  rw [← heeds_iff_run]
  refine heeds_attemptCommand hpast₂.bound ht hknown hline (htidy₂.imp fun _ => .inl)
    (fun e s' _ hpast' htidy' =>
      hfail e h s' ((hpast.trans hpast₂).trans hpast') htidy' fun _ => .untried)
    fun c answer s₃ s₄ s₅ s' hc hattempt => ?_
  have hpast' := (hpast.trans hpast₂).trans hattempt.past
  cases hverdict : verdict "kill" ⟨c, s₃, answer⟩ with
  | error e =>
    exact hfail e _ s' hpast' hattempt.tidy fun hfailure =>
      .failed i c answer s₃ s₄ s₅ hc hverdict hfailure
  | ok r =>
    simp only [hence_ok, heeds_bind, heeds_setStarted, heeds_pure]
    exact ⟨(State.Touch.mark ht hattempt.mine false).single, hpast'.mark id false,
      Familiar.marked_down ⟨hattempt.mine, .inr hattempt.seen⟩ hattempt.tidy.length
        (.closed (.inl ⟨hc, r, hverdict⟩)), fun h => absurd h (by simp)⟩

/-- A recovery takes back the mark of a daemon that is stuck once the daemon was killed or cleared
away. -/
theorem heeds_recoverStuck (hs : s.Bound k n) (ht : t.key? = some k) (htidy : Tidy k h s)
    (hwedged : h.Wedged) :
    (recoverStuck n).Heeds (tidiness t) i (fun r h' s' => Past k n h s h' s' ∧
      Marked k (fun id => Excused k id h' ∨ r = .ok () ∧ h'.Cleared k s') h' s') h s := by
  rw [recoverStuck]
  simp only [heeds_bind, heeds_workspace, hence_ok, heeds_log, tidiness_write_record, true_and]
  generalize hs₁ : State.record _ _ = s₁
  have heven : s.Even s₁ := hs₁ ▸ State.even_record s _
  refine (heeds_kill (hs.even heven) ht (htidy.even heven)).mono fun r h' s' hr => ?_
  obtain ⟨hpast, htidy', hspared⟩ := hr
  have hpast' : Past k n h s h' s' := (Past.of_even hs heven).trans hpast
  cases r with
  | error e => exact (hence_error _ _ _).2 ⟨hpast', htidy'.imp fun _ => .inl⟩
  | ok killed =>
    simp only [hence_ok]
    split
    · next hkilled =>
      rw [heeds_bind]
      refine heeds_handle hpast'.bound ht (fun id s₂ hid => ?_) fun e =>
        (hence_error _ _ _).2 ⟨hpast', htidy'.imp fun _ => .inl⟩
      have hpast₂ := hpast'.trans (hid.past hpast'.bound)
      have heven' := State.even_withWorld s₂ ((s₂.handle id).removeStatusFile.exec s₂.world).2
      have htidy₂ := (hid.tidy htidy').even heven'
      obtain ⟨w, hexec, -, -, hgone⟩ := (s₂.handle id).exec_removeStatusFile s₂
      simp only [hence_ok, withHandle, heeds_bind, heeds_state, heeds_act]
      refine ⟨(State.Touch.removal ht hid.entry).single, ?_⟩
      rw [hexec] at heven' htidy₂ ⊢
      cases hremoval : (s₂.handle id).removal s₂.world with
      | error e => exact (hence_error _ _ _).2 ⟨hpast₂.even heven', htidy₂.imp fun _ => .inl⟩
      | ok removed =>
        have hknown := (hid.known (h := h') hpast'.bound).later (List.suffix_refl h') heven'.later
          .inl
        have hmissing : State.FileGone { s₂ with world := w } k :=
          ⟨id, hid.entry, hgone removed hremoval⟩
        simp only [Except.map, hence_ok, heeds_setStarted]
        refine ⟨(State.Touch.mark ht hknown.mine false).single, (hpast₂.even heven').mark id false,
          hknown.marked_down htidy₂.length (.inr ⟨trivial, hspared ?_ hwedged, ?_⟩)⟩
        · simpa using hkilled
        · exact hmissing.kept (State.kept_setStarted _ id false)
    · rw [heeds_pure]
      exact ⟨hpast', htidy'.imp fun _ => .inl⟩

/-- A command that leaves a daemon running keeps marks tidy, also when it is repeated. -/
theorem heeds_run {command : String} {args : List Json} {retryOnStuck : Bool} (hs : s.Bound k n)
    (ht : t.key? = some k) (htidy : Tidy k h s)
    (hstarts : Workspace.startsDaemon command = true) :
    (run n command args retryOnStuck).Heeds (tidiness t) i
      (fun _ h' s' => Past k n h s h' s' ∧ Tidy k h' s') h s := by
  rw [run]
  simp only [heeds_bind, heeds_state, hence_ok]
  generalize (if (retryOnStuck && s.daemons.retryCommands.contains command) = true then 2 else 1 :
    Int) = bound
  refine heeds_give hs ht htidy (fun id argv delay s₁ hpast₁ htidy₁ hknown _ hline => ?_)
    fun e s' hpast htidy' => ⟨hpast, htidy'⟩
  rw [Retry.bounded]
  split
  · exact (Prog.heeds_return _ _ _ _).2 ⟨hpast₁, htidy₁⟩
  · refine heeds_attemptsFrom (P := fun _ h' s' => Past k n h s h' s' ∧ Familiar k id h' s' ∧
      Poised k command h' s') (fun number h' s' hP => ?_) _ _
      ⟨hpast₁, hknown, htidy₁.imp fun _ => .inl⟩
    obtain ⟨hpast', hknown', hpoised⟩ := hP
    rw [← heeds_iff_run]
    refine heeds_attemptCommand hpast'.bound ht hknown' hline hpoised
      (fun e s'' hfailure hpast htidy => ⟨⟨hpast'.trans hpast, htidy⟩, ?_⟩)
      fun c answer s₂ s₃ s₄ s'' hc hattempt =>
        ⟨⟨hpast'.trans hattempt.past, hattempt.tidy⟩, fun e hverdict hstuck => ?_⟩
    · rintro _ ⟨⟩ hstuck
      rw [isStuck_of_not_failure hfailure] at hstuck
      exact absurd hstuck (by simp)
    · have hwedged : (h'.back i c answer s₂ s₃ s₄).Wedged :=
        ⟨command, hc, hstarts, (foundStuck_iff command _).2 ⟨e, hverdict, hstuck⟩⟩
      have hpast := hpast'.trans hattempt.past
      have hseen : ∀ h₁ s₁, Past k n (h'.back i c answer s₂ s₃ s₄) s'' h₁ s₁ →
          Familiar k id h₁ s₁ := fun h₁ s₁ hsince =>
        ⟨hsince.later.mine hattempt.mine, .inr (hattempt.seen.mono hsince.suffix)⟩
      refine heeds_between (P := fun r h₁ s₁ => Past k n (h'.back i c answer s₂ s₃ s₄) s'' h₁ s₁ ∧
        Marked k (fun id => Excused k id h₁ ∨ r = .ok () ∧ h₁.Cleared k s₁) h₁ s₁)
        (fun s₅ heven => ?_) (fun r h₁ s₁ hr => ?_) fun h₁ s₁ hr => ?_
      · have hsame := Past.of_even (h := h'.back i c answer s₂ s₃ s₄) hattempt.past.bound heven
        exact (heeds_recoverStuck hsame.bound ht (hattempt.tidy.even heven) hwedged).mono
          fun r h₁ s₁ hr => ⟨hsame.trans hr.1, hr.2⟩
      · obtain ⟨hsince, hmarked⟩ := hr
        cases r with
        | error e => exact ⟨hpast.trans hsince, hmarked.imp fun id => by simp⟩
        | ok u =>
          exact ⟨hpast.trans hsince, hseen h₁ s₁ hsince,
            hmarked.imp fun id => Or.imp_right fun h => ⟨hstarts, h.2⟩⟩
      · obtain ⟨hsince, hmarked⟩ := hr
        have hslept : s₁.Kept (s₁.slept delay) :=
          ⟨rfl, World.Appended.refl s₁.world, rfl, fun _ => ⟨rfl, rfl⟩⟩
        refine ⟨fun k' hk' => ?_, fun s' hon hlater => ?_⟩
        · obtain rfl := Option.some.inj (ht.symm.trans hk')
          refine ⟨⟨hmarked.length, fun id' hfixed hid' hdown => ?_⟩, fun c h => absurd h (by simp)⟩
          exact (hmarked.marks id' hfixed hid' hdown).imp_right fun h =>
            ⟨⟨delay, rfl⟩, h.2.spared, h.2.gone.kept hslept⟩
        · have hpaused := past_slept (h := h₁) (i := i) hsince.bound hon hlater
          exact ⟨hpast.trans (hsince.trans hpaused), familiar_slept (hseen h₁ s₁ hsince) hlater,
            (tidy_resumed i _ s').imp fun _ => .inl⟩

/-- A call of the checker itself has nothing to do with daemons. -/
theorem heeds_runDirect {text : String} {args : List Json} (hs : s.Bound k n)
    (ht : t.key? = some k) (htidy : Tidy k h s) :
    (runDirect n (.str "-c" :: .str text :: args)).Heeds (tidiness t) i
      (fun _ h' s' => Past k n h s h' s' ∧ Tidy k h' s') h s := by
  rw [runDirect]
  simp only [heeds_bind, heeds_workspace, hence_ok, heeds_look]
  cases hfront : (s.workspace n).command s.world .direct with
  | error e => exact (hence_error _ _ _).2 ⟨.refl hs, htidy⟩
  | ok front =>
    rw [hence_ok]
    refine heeds_invoke (fun c s' hc hlogged => ?_)
      (fun e s' _ hlogged => ⟨.of_even hs hlogged.even, htidy.even hlogged.even⟩)
      fun c answer s₁ s₂ s₃ s' _ hlogged hcame heven' =>
        ⟨past_back hs hlogged.even hcame heven', tidy_back heven'⟩
    refine tidiness_duty_spawned ht (htidy.even hlogged.even) ?_
    rw [Call.starts, command?_of_direct hfront hc]
    rfl

/-! ## Stopping -/

theorem isFailure_of_saysNotRunning {e : Fault} (he : saysNotRunning e = true) :
    isFailure e = true := by
  unfold saysNotRunning at he
  split at he
  · rfl
  · rfl
  · exact absurd he (by simp)

/-- One attempt to stop a daemon. -/
theorem heeds_stopAttempt {argv : List Json} {number : Nat} (hs : s.Bound k n)
    (ht : t.key? = some k) (htidy : Tidy k h s) (hid : Familiar k id h s)
    (hline : ∀ c : Call, words argv = .ok c.argv → c.command? = some "stop")
    (hnumber : 1 < number → h.lastCommand? = some "stop") :
    (stopAttempt n argv number).Heeds (tidiness t) i (fun r h' s' => Past k n h s h' s' ∧
      Tidy k h' s' ∧ Familiar k id h' s' ∧ (∀ stopped, r = .ok stopped → h'.Closes) ∧
      ∀ e, r = .error e → isFailure e = true → h'.lastCommand? = some "stop") h s := by
  rw [stopAttempt, heeds_bind, Op.heeds_attempt]
  refine heeds_invoke (fun c s' hc hlogged => ?_) (fun e s' hfailure hlogged => ?_)
    fun c answer s₁ s₂ s₃ s' hc hlogged hcame heven' => ?_
  · refine tidiness_duty_spawned ht (htidy.even hlogged.even) ?_
    rw [Call.starts, hline c hc]
    decide
  · have heven := hlogged.even
    have hnot : saysNotRunning e = false := by
      by_contra hsays
      rw [isFailure_of_saysNotRunning (by simpa using hsays)] at hfailure
      exact absurd hfailure (by simp)
    simp only [hence_ok, hnot, Bool.and_false, Bool.false_eq_true, if_false, heeds_throw]
    refine ⟨.of_even hs heven, htidy.even heven, hid.later (List.suffix_refl h) heven.later ?_,
      fun _ h => absurd h (by simp), ?_⟩
    · rw [heven.handleOf]
      exact .inl
    · rintro _ ⟨⟩ hfailure'
      rw [hfailure] at hfailure'
      exact absurd hfailure' (by simp)
  · have heven := hlogged.even
    have hpast := past_back (h := h) (i := i) (c := c) hs heven hcame heven'
    have hknown : Familiar k id (h.back i c answer s₁ s₂ s₃) s' :=
      ⟨hpast.later.mine hid.mine, .inr (seen_back hid heven)⟩
    have htidy' : Tidy k (h.back i c answer s₁ s₂ s₃) s' := tidy_back heven'
    cases hverdict : verdict "stop" ⟨c, s₁, answer⟩ with
    | ok r =>
      simp only [hence_ok, heeds_pure]
      exact ⟨hpast, htidy', hknown, fun _ _ => .inr ⟨hline c hc, .inl ⟨r, hverdict⟩⟩,
        fun _ h => absurd h (by simp)⟩
    | error e =>
      rw [hence_ok]
      dsimp only
      split
      · next hgone =>
        simp only [Bool.and_eq_true, decide_eq_true_eq] at hgone
        have heven₂ := State.even_record s' ⟨.info, .adapter,
          "Daemon for " ++ (s'.workspace n).root.text ++ " is not running"⟩
        simp only [heeds_bind, heeds_workspace, hence_ok, heeds_log, tidiness_write_record,
          true_and, heeds_pure]
        exact ⟨hpast.even heven₂, htidy'.even heven₂,
          hknown.later (List.suffix_refl _) heven₂.later .inl,
          fun _ _ => .inr ⟨hline c hc, .inr ⟨hnumber hgone.1, e, hverdict, hgone.2⟩⟩,
          fun _ h => absurd h (by simp)⟩
      · rw [heeds_throw]
        exact ⟨hpast, htidy', hknown, fun _ h => absurd h (by simp), fun _ _ _ => hline c hc⟩

/-- A daemon that was stopped is gone. -/
theorem heeds_stop (hs : s.Bound k n) (ht : t.key? = some k) (htidy : Tidy k h s) :
    (stop n).Heeds (tidiness t) i (fun _ h' s' => Past k n h s h' s' ∧ Tidy k h' s') h s := by
  -- a fault that is a failure of the checker is only noted
  have hfail : ∀ (text : String) e h' s', Past k n h s h' s' → Tidy k h' s' →
      (if isFailure e then do
          log .warning .adapter text
          return false
        else throw e : Op Bool).Heeds (tidiness t) i
          (fun _ h' s' => Past k n h s h' s' ∧ Tidy k h' s') h' s' := by
    intro text e h' s' hpast htidy'
    split
    · simp only [heeds_bind, hence_ok, heeds_log, tidiness_write_record, true_and, heeds_pure]
      exact ⟨hpast.even (State.even_record s' _), htidy'.even (State.even_record s' _)⟩
    · rw [heeds_throw]
      exact ⟨hpast, htidy'⟩
  rw [stop, heeds_bind]
  refine heeds_handle hs ht (fun id s₁ hid => ?_) fun e =>
    (hence_error _ _ _).2 ⟨.refl hs, htidy⟩
  have hpast := hid.past (h := h) hs
  have htidy₁ := hid.tidy htidy
  simp only [hence_ok, heeds_bind, heeds_state, heeds_look]
  cases isAbsent s₁ id with
  | error e => exact (hence_error _ _ _).2 ⟨hpast, htidy₁⟩
  | ok absent =>
  rw [hence_ok]
  split
  · simp only [heeds_bind, heeds_log, tidiness_write_record, true_and, hence_ok, heeds_pure]
    exact ⟨hpast.even (State.even_record s₁ _), htidy₁.even (State.even_record s₁ _)⟩
  · rw [heeds_bind, Op.heeds_attempt]
    refine heeds_argv hpast.bound ht (fun id' argv s₂ hid' hline => ?_) fun e s' hpast' hmarks =>
      (hence_ok _ _ _).2
        (hfail _ e h s' (hpast.trans hpast') (htidy₁.later hpast'.later hmarks))
    obtain rfl := hid'.same id hid.fits
    rw [hence_ok]
    dsimp only
    rw [heeds_bind, Op.heeds_attempt, heeds_iff_run]
    show Prog.Heeds _ _ _ (Retry.bounded 2 _ _ _) _ _
    rw [Retry.bounded, if_neg (by decide)]
    refine heeds_attemptsFrom (P := fun number h' s' => Past k n h s h' s' ∧ Tidy k h' s' ∧
      Familiar k id h' s' ∧ (1 < number → h'.lastCommand? = some "stop"))
      (fun number h' s' hP => ?_) _ _ ⟨hpast, htidy₁, hid.known hs, fun h => absurd h (by decide)⟩
    obtain ⟨hpast', htidy', hknown, hnumber⟩ := hP
    show Prog.Heeds _ _ _ (stopAttempt n argv number).run _ _
    rw [← heeds_iff_run]
    refine (heeds_stopAttempt hpast'.bound ht htidy' hknown hline hnumber).mono
      fun r h'' s'' hr => ?_
    obtain ⟨hpast'', htidy'', hknown'', hok, herror⟩ := hr
    have hpast'' := hpast'.trans hpast''
    refine ⟨?_, fun e he hfailure => heeds_between (P := fun r h₁ s₁ => r = .ok () ∧
      Past k n h s h₁ s₁ ∧ Tidy k h₁ s₁ ∧ Familiar k id h₁ s₁ ∧ h₁.lastCommand? = some "stop")
      (fun s₃ heven => ?_) (fun r h₁ s₁ hr => ?_) fun h₁ s₁ hr => ?_⟩
    · cases r with
      | error e => exact (hence_ok _ _ _).2 (hfail _ e h'' s'' hpast'' htidy'')
      | ok stopped =>
        simp only [hence_ok, heeds_bind, heeds_setStarted, heeds_log, tidiness_write_record,
          true_and, heeds_pure]
        have hmarked : Tidy k h'' (s''.mark id false) :=
          hknown''.marked_down htidy''.length (.closed (hok stopped rfl))
        exact ⟨(State.Touch.mark ht hknown''.mine false).single,
          (hpast''.mark id false).even (State.even_record _ _),
          hmarked.even (State.even_record _ _)⟩
    · exact ⟨rfl, hpast''.even heven, htidy''.even heven,
        hknown''.later (List.suffix_refl _) heven.later fun hentry => by
          rw [heven.handleOf]
          exact .inl hentry, herror e he hfailure⟩
    · obtain ⟨rfl, hpast₁, htidy₁, hknown₁, hlast⟩ := hr
      exact ⟨hpast₁, htidy₁, hknown₁, fun _ => hlast⟩
    · obtain ⟨-, hpast₁, htidy₁, hknown₁, hlast⟩ := hr
      refine ⟨tidiness_duty ht (htidy₁.even (State.even_slept s₁ _)) (by simp),
        fun s' hon hlater => ?_⟩
      exact ⟨hpast₁.trans (past_slept hpast₁.bound hon hlater), tidy_resumed i _ s',
        familiar_slept hknown₁ hlater, fun _ => hlast⟩

end Daemon

end Overseer
