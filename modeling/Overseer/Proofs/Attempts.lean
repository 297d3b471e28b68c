import Overseer.Proofs.Deeds

set_option autoImplicit false

/-! # Attempts at a daemon command

A command that is given is prepared first: its handle is looked up, its command line is worked
out, and directories are made (`plays_give`). An attempt then starts a process, if its directory,
its environment and its words can be worked out, and its result is what the process says
(`plays_attempt`).

When nobody else interferes, what was there for one attempt is still there for the next one.
Giving a command again finds the handle and the directories and changes nothing (`Prepared`), and
an attempt changes nothing but logs and the mark that a daemon was started (`State.Kept`). What a
process needs is not lost either when files are removed (`State.Worn`, `Ready.worn`). -/

namespace Overseer

namespace State

/-- Apart from logs and from the marks of which daemon was started, all is as it was. -/
structure Kept (s s' : State) : Prop where
  core : s'.core = s.core
  world : s.world.Appended s'.world
  handleOf : s'.handleOf = s.handleOf
  handle : ∀ id, (s'.handle id).statusFile = (s.handle id).statusFile ∧
    (s'.handle id).logFile = (s.handle id).logFile

/-- Files may have been removed as well. -/
structure Worn (s s' : State) : Prop where
  core : s'.core = s.core
  world : s.world.Worn s'.world

variable {s s' s'' : State}

theorem Kept.refl (s : State) : s.Kept s :=
  ⟨rfl, World.Appended.refl s.world, rfl, fun _ => ⟨rfl, rfl⟩⟩

theorem Kept.trans (h : s.Kept s') (h' : s'.Kept s'') : s.Kept s'' :=
  ⟨h'.core.trans h.core, h.world.trans h'.world, h'.handleOf.trans h.handleOf, fun id =>
    ⟨(h'.handle id).1.trans (h.handle id).1, (h'.handle id).2.trans (h.handle id).2⟩⟩

theorem Kept.worn (h : s.Kept s') : s.Worn s' := ⟨h.core, h.world.worn⟩

theorem Worn.trans (h : s.Worn s') (h' : s'.Worn s'') : s.Worn s'' :=
  ⟨h'.core.trans h.core, h.world.trans h'.world⟩

theorem kept_withWorld {w : World} (h : s.world.Appended w) : s.Kept { s with world := w } :=
  ⟨rfl, h, rfl, fun _ => ⟨rfl, rfl⟩⟩

theorem kept_record (s : State) (r : LogRecord) : s.Kept (s.record r) :=
  kept_withWorld (s.world.appended_record r)

/-- Nothing but logs has changed. -/
structure Logged (s s' : State) : Prop extends Kept s s' where
  handles : s'.handles = s.handles

theorem Logged.refl (s : State) : s.Logged s := ⟨.refl s, rfl⟩

theorem Logged.trans (h : s.Logged s') (h' : s'.Logged s'') : s.Logged s'' :=
  ⟨h.toKept.trans h'.toKept, h'.handles.trans h.handles⟩

theorem logged_withWorld {w : World} (h : s.world.Appended w) : s.Logged { s with world := w } :=
  ⟨kept_withWorld h, rfl⟩

theorem kept_setStarted (s : State) (id : Nat) (started : Bool) :
    s.Kept (s.setHandle id fun h => { h with started }) := by
  refine ⟨rfl, World.Appended.refl s.world, rfl, fun id' => ?_⟩
  simp only [handle, setHandle, List.getElem?_modify]
  split
  · cases s.handles[id']? <;> exact ⟨rfl, rfl⟩
  · cases s.handles[id']? <;> exact ⟨rfl, rfl⟩

/-- Nothing but the logs in the world has changed. -/
def Noted (s s' : State) : Prop := ∃ w, s.world.Appended w ∧ s' = { s with world := w }

theorem Noted.refl (s : State) : s.Noted s := ⟨s.world, World.Appended.refl s.world, rfl⟩

theorem Noted.trans (h : s.Noted s') (h' : s'.Noted s'') : s.Noted s'' := by
  obtain ⟨w, hw, rfl⟩ := h
  obtain ⟨w', hw', rfl⟩ := h'
  exact ⟨w', hw.trans hw', rfl⟩

theorem Noted.logged (h : s.Noted s') : s.Logged s' := by
  obtain ⟨w, hw, rfl⟩ := h
  exact logged_withWorld hw

theorem noted_record (s : State) (r : LogRecord) : s.Noted (s.record r) :=
  ⟨_, s.world.appended_record r, rfl⟩

/-- Nothing but the world has changed. -/
def Beside (s s' : State) : Prop := ∃ w, s' = { s with world := w }

theorem Beside.refl (s : State) : s.Beside s := ⟨s.world, rfl⟩

theorem Beside.trans (h : s.Beside s') (h' : s'.Beside s'') : s.Beside s'' := by
  obtain ⟨w, rfl⟩ := h
  obtain ⟨w', rfl⟩ := h'
  exact ⟨w', rfl⟩

theorem Noted.beside (h : s.Noted s') : s.Beside s' := by
  obtain ⟨w, -, rfl⟩ := h
  exact ⟨w, rfl⟩

theorem Beside.sleeps (h : s.Beside s') : s'.sleeps = s.sleeps := by
  obtain ⟨w, rfl⟩ := h
  rfl

theorem Beside.handles (h : s.Beside s') : s'.handles = s.handles := by
  obtain ⟨w, rfl⟩ := h
  rfl

end State

/-- Whoever does something while the operation waits changes the world, and nothing that belongs
to the program. -/
structure Children.Outside (children : Children) : Prop where
  answer : ∀ ds (s : State) c, s.Beside (children.answer ds s c).2
  pause : ∀ ds (s : State) ms, s.Beside (children.pause ds s ms)

namespace Daemon

open Op

variable {children : Children} {ds : List Deed} {s s' : State} {n id : Nat}

/-! ## What the parts need -/

/-- The directory, the environment and the command line of a process can be worked out. -/
structure Ready (s : State) (n : Nat) (argv : List Json) : Prop where
  cwd : ∃ cwd, (s.workspace n).cwd s.world = .ok cwd
  environment : ∃ environment, ((s.workspace n).environment.exec s.world).1 = .ok environment
  words : ∃ line, words argv = .ok line

theorem Ready.worn {argv : List Json} (h : Ready s n argv) (hs : s.Worn s') :
    Ready s' n argv := by
  have hws := State.workspace_of_core hs.core n
  refine ⟨?_, ?_, h.words⟩
  · rw [hws, Workspace.cwd_of_environment hs.world.environment]
    exact h.cwd
  · rw [hws]
    exact Workspace.isOk_environment hs.world h.environment

/-- The handle on file has the configured status file, if one is configured. -/
structure Fits (s : State) (n id : Nat) : Prop where
  entry : s.handleOf.get? (s.key n) = some id
  status : ∃ configured, (s.workspace n).statusFile s.world = .ok configured ∧
    ∀ path ∈ configured, (s.handle id).statusFile = path

/-- There is a handle on file that fits, and the directories of its files are there. -/
def Prepared (s : State) (n : Nat) : Prop :=
  ∃ id, Fits s n id ∧ (s.handle id).Housed s.world

theorem Fits.kept (h : Fits s n id) (hs : s.Kept s') : Fits s' n id := by
  obtain ⟨configured, hconfigured, hpath⟩ := h.status
  refine ⟨?_, configured, ?_, fun path hp => ?_⟩
  · rw [hs.handleOf, State.key_of_core hs.core]
    exact h.entry
  · rw [State.workspace_of_core hs.core, Workspace.statusFile,
      Workspace.path?_of_environment hs.world.environment]
    exact hconfigured
  · rw [(hs.handle id).1]
    exact hpath path hp

theorem Prepared.kept (h : Prepared s n) (hs : s.Kept s') : Prepared s' n := by
  obtain ⟨id, hfits, hstatus, hlog⟩ := h
  refine ⟨id, hfits.kept hs, ?_, ?_⟩
  · rw [(hs.handle id).1]
    exact hs.world.isDirectory hstatus
  · rw [(hs.handle id).2]
    exact hs.world.isDirectory hlog

/-! ## Handles -/

/-- A handle that fits is used. -/
theorem plays_handle_of_fits {Q : Except Fault Nat → List Deed → State → Prop}
    (h : Fits s n id) : (handle n).Plays children Q ds s ↔ Q (.ok id) ds s := by
  obtain ⟨configured, hconfigured, hpath⟩ := h.status
  have hentry : s.handleOf.get? (s.workspace n).key = some id := h.entry
  rw [handle]
  simp only [plays_bind, plays_workspace, plays_look, then_ok, plays_state, hconfigured, hentry]
  cases configured with
  | none => simp only [if_true, plays_pure]
  | some path =>
    have hstatus : (s.handle id).statusFile = path := hpath path rfl
    simp only [hstatus, decide_true, if_true, plays_pure]

/-- The handle that was found for a workspace fits, and has not been added if there was one. -/
structure Found (s : State) (n id : Nat) (s' : State) : Prop extends HandleFound s n id s' where
  fits : Fits s' n id
  same : ∀ id', Fits s n id' → s' = s
  /-- A handle that comes on file has the resolved root of the workspace. -/
  root : (∀ id', ¬ Fits s n id') → s.world.resolve (s.workspace n).root = .ok (s'.handle id).root

/-- A handle that fits is found. -/
theorem found_of_fits (hid : Fits s n id) : Found s n id s := by
  obtain ⟨configured, hconfigured, hpath⟩ := hid.status
  exact ⟨handleFound_same hconfigured hid.entry hpath, hid, fun _ _ => rfl,
    fun hnone => absurd hid (hnone id)⟩

theorem plays_handle {Q : Except Fault Nat → List Deed → State → Prop}
    (hok : ∀ id s', Found s n id s' → Q (.ok id) ds s')
    (herror : ∀ e, Unhandled n e s → (∀ id, ¬ Fits s n id) → Q (.error e) ds s) :
    (handle n).Plays children Q ds s := by
  by_cases hfits : ∃ id, Fits s n id
  · obtain ⟨id, hid⟩ := hfits
    exact (plays_handle_of_fits hid).2 (hok id s (found_of_fits hid))
  have hnone : ∀ id, ¬ Fits s n id := fun id h => hfits ⟨id, h⟩
  rw [handle]
  simp only [plays_bind, plays_workspace, plays_look, then_ok]
  cases hconfigured : (s.workspace n).statusFile s.world with
  | error e => exact (then_error _ _ _).2 (herror e (.inl hconfigured) hnone)
  | ok configured =>
    simp only [then_ok, plays_bind, plays_state]
    -- a handle that does not fit is treated as if there were none
    have hnew : ¬ Stale s n → Then children (fun h => do
        Op.modify fun s' => { s' with
          handles := s'.handles ++ [h]
          handleOf := s'.handleOf.insert (s.workspace n).key s.handles.length }
        pure s.handles.length) Q
        (Handle.ofRoot s.world s.daemons.identity (s.workspace n).root configured) ds s := by
      intro hstale
      cases hh : Handle.ofRoot s.world s.daemons.identity (s.workspace n).root configured with
      | error e => exact (then_error _ _ _).2 (herror e (.inr (resolve_of_ofRoot hh)) hnone)
      | ok h =>
        have hfollows := follows_ofRoot hh
        have hquiet : Deed.ofWrite s { s with
            handles := s.handles ++ [h]
            handleOf := s.handleOf.insert (s.workspace n).key s.handles.length } = [] :=
          Deed.ofWrite_eq_nil (Files.Tree.within_refl s.world.files fun _ => rfl)
        simp only [then_ok, plays_bind, plays_modify, hquiet, List.append_nil, plays_pure]
        refine hok _ _ ⟨handleFound_new hconfigured hstale hh, ⟨by simp [State.key, State.workspace,
          State.registration, Assoc.get?_insert], configured, hconfigured, ?_⟩,
          fun id' h => absurd h (hnone id'), fun _ => ?_⟩
        · intro path hpath
          cases hpath
          have hstatus : h.statusFile = path := hfollows
          simpa [State.handle] using hstatus
        · simpa [State.handle] using root_ofRoot hh
    cases hid : s.handleOf.get? (s.workspace n).key with
    | none =>
      rw [plays_bind, plays_look]
      exact hnew (not_stale_of_none hid)
    | some id =>
      cases configured with
      | none => exact absurd ⟨hid, none, hconfigured, by simp⟩ (hnone id)
      | some path =>
        by_cases hpath : (s.handle id).statusFile = path
        · exact absurd ⟨hid, some path, hconfigured, by simpa using hpath⟩ (hnone id)
        · simp only [hpath, decide_false, Bool.false_eq_true, if_false, plays_bind, plays_look]
          exact hnew (not_stale_of_configured hconfigured)

/-! ## One attempt -/

/-- What a process that has come back says: the result of its command, or a fault. -/
def verdict (command : String) (d : Dealing) : Except Fault RunResult :=
  match d.answer with
  | .ok ended =>
    let outcome := Outcome.classify ended command
    if outcome.isSuccess then .ok (.judge command ended)
    else .error (.failure (failureOf outcome ended) none)
  | .error e =>
    if e.cls.isA .os then
      .error (.failure (.executableNotFound (d.call.argv.headD "") e.message) (some .os))
    else .error e

/-- A process found that the daemon does not answer: so its end was classified, or starting it
stopped with a fault that says so. -/
def FoundStuck (command : String) (d : Dealing) : Prop :=
  match d.answer with
  | .ok ended => Outcome.classify ended command = .daemonStuck
  | .error e => isStuck e = true

theorem isStuck_of_os {e : Fault} (h : e.cls.isA .os = true) : isStuck e = false := by
  unfold isStuck
  generalize e.cls = c at h ⊢
  revert h
  cases c <;> decide

theorem foundStuck_iff (command : String) (d : Dealing) :
    FoundStuck command d ↔ ∃ e, verdict command d = .error e ∧ isStuck e = true := by
  unfold FoundStuck verdict
  cases d.answer with
  | ok ended =>
    dsimp only
    cases Outcome.classify ended command <;>
      simp [Outcome.isSuccess, failureOf, isStuck, Fault.cls, Fault.failureClass] <;> decide
  | error e =>
    dsimp only
    split
    · next hos =>
      -- a process that could not be started is reported as missing
      rw [isStuck_of_os hos]
      refine ⟨fun h => absurd h (by simp), ?_⟩
      rintro ⟨e', he', hstuck⟩
      cases he'
      exact absurd hstuck (by simp [isStuck, Fault.cls, Fault.failureClass]; decide)
    · simp

theorem plays_startChecker {Q : Except Fault Ended → List Deed → State → Prop} {c : Call}
    (hok : ∀ ended s', (children.answer ds s c).2.Noted s' →
      Q (.ok ended) (ds ++ [.started ⟨c, s, .ok ended⟩]) s')
    (herror : ∀ e e' s', (children.answer ds s c).2.Noted s' →
      (∀ command, verdict command ⟨c, s, .error e⟩ = .error e') →
      Q (.error e') (ds ++ [.started ⟨c, s, .error e⟩]) s') :
    (startChecker c).Plays children Q ds s := by
  rw [startChecker]
  simp only [plays_bind, Op.plays_attempt, plays_spawn]
  generalize children.answer ds s c = answered at hok herror ⊢
  obtain ⟨answer, s'⟩ := answered
  cases answer with
  | ok ended =>
    simp only [then_ok, plays_pure]
    exact hok ended s' (.refl s')
  | error e =>
    simp only [then_ok]
    split
    · next hos =>
      simp only [plays_bind, plays_log, then_ok, plays_throw]
      refine herror e _ _ (State.noted_record s' _) fun command => ?_
      simp only [verdict, hos, if_true]
    · next hos =>
      rw [plays_throw]
      refine herror e e s' (.refl s') fun command => ?_
      simp only [verdict, hos, Bool.false_eq_true, if_false]

/-- A call of the checker starts a process if and only if its directory, its environment and its
command line can be worked out; its result is what the process says. Before and after the process
there are only notes. -/
theorem plays_invoke_noted {Q : Except Fault RunResult → List Deed → State → Prop}
    {argv : List Json} {command : String}
    (hnone : ∀ e s', ¬ Ready s n argv → isFailure e = false → s.Noted s' → Q (.error e) ds s')
    (hsome : ∀ d s', Ready s n argv → words argv = .ok d.call.argv → s.Noted d.state →
      (children.answer ds d.state d.call).2.Noted s' →
      Q (verdict command d) (ds ++ [.started d]) s') :
    (invoke n argv command).Plays children Q ds s := by
  rw [invoke]
  simp only [plays_bind, plays_workspace, plays_look, then_ok]
  cases hcwd : (s.workspace n).cwd s.world with
  | error e =>
    refine (then_error _ _ _).2 (hnone e s (fun h => ?_) (isFailure_of_cwd hcwd) (.refl s))
    obtain ⟨cwd, h⟩ := h.cwd
    exact absurd (hcwd.symm.trans h) (by simp)
  | ok cwd =>
    have hnoted : s.Noted { s with world := ((s.workspace n).environment.exec s.world).2 } :=
      ⟨_, Workspace.appended_environment, rfl⟩
    have hwrite := Deed.ofWrite_eq_nil hnoted.logged.world.longer
    simp only [then_ok, plays_bind, plays_act, hwrite, List.append_nil]
    cases henv : ((s.workspace n).environment.exec s.world).1 with
    | error e =>
      refine (then_error _ _ _).2 (hnone e _ (fun h => ?_) (isFailure_of_environment henv) hnoted)
      obtain ⟨environment, h⟩ := h.environment
      exact absurd (henv.symm.trans h) (by simp)
    | ok environment =>
      simp only [then_ok, plays_bind, plays_look]
      cases hwords : words argv with
      | error e =>
        refine (then_error _ _ _).2 (hnone e _ (fun h => ?_) (isFailure_of_words hwords) hnoted)
        obtain ⟨line, h⟩ := h.words
        exact absurd (hwords.symm.trans h) (by simp)
      | ok line =>
        have hready : Ready s n argv := ⟨⟨cwd, hcwd⟩, ⟨environment, henv⟩, ⟨line, hwords⟩⟩
        simp only [then_ok, plays_bind, plays_log]
        generalize hs₁ : State.record _ _ = s₁
        have hs : s.Noted s₁ := hs₁ ▸ hnoted.trans (State.noted_record _ _)
        refine plays_startChecker (fun ended s' hs' => ?_) fun e e' s' hs' hverdict => ?_
        · have hsaid : ∀ s'', s'.Noted s'' → Q (verdict command ⟨_, s₁, .ok ended⟩)
              (ds ++ [.started ⟨⟨line, some cwd, some environment⟩, s₁, .ok ended⟩]) s'' :=
            fun s'' hs'' => hsome ⟨_, s₁, .ok ended⟩ s'' hready hwords hs (hs'.trans hs'')
          simp only [verdict, RunResult.judge] at hsaid
          simp only [then_ok]
          split
          · next hnothing =>
            simp only [hnothing, Outcome.isSuccess, if_true] at hsaid
            simp only [hnothing, plays_bind, plays_log, then_ok, plays_pure]
            exact hsaid _ (State.noted_record s' _)
          · next hsomething =>
            simp only [hsomething, if_false] at hsaid
            split
            · next hsuccess =>
              simp only [hsuccess, if_true] at hsaid
              split
              · simp only [plays_bind, plays_log, then_ok, plays_pure]
                exact hsaid _ ((State.noted_record s' _).trans (State.noted_record _ _))
              · simp only [plays_bind, plays_log, then_ok, plays_pure]
                exact hsaid _ (State.noted_record s' _)
            · next hfailed =>
              simp only [hfailed, Bool.false_eq_true, if_false] at hsaid
              simp only [plays_bind, plays_log, then_ok, plays_throw]
              exact hsaid _ (State.noted_record s' _)
        · rw [then_error, ← hverdict command]
          exact hsome _ s' hready hwords hs hs'

theorem plays_invoke {Q : Except Fault RunResult → List Deed → State → Prop}
    {argv : List Json} {command : String}
    (hnone : ∀ e s', ¬ Ready s n argv → isFailure e = false → s.Logged s' → Q (.error e) ds s')
    (hsome : ∀ d s', Ready s n argv → words argv = .ok d.call.argv → s.Logged d.state →
      (children.Quiet → d.state.Logged s') → Q (verdict command d) (ds ++ [.started d]) s') :
    (invoke n argv command).Plays children Q ds s := by
  refine plays_invoke_noted (fun e s' hnot hfailure hs' => hnone e s' hnot hfailure hs'.logged)
    fun d s' hready hwords hd hs' => hsome d s' hready hwords hd.logged fun hquiet => ?_
  rw [hquiet.answer ds d.state d.call] at hs'
  exact hs'.logged

/-- One attempt at a daemon command: the process, if one was started, and the result. -/
structure Try where
  process : Option Dealing
  result : Except Fault RunResult

namespace Try

/-- What others see of an attempt. -/
def deeds (t : Try) : List Deed := t.process.toList.map .started

/-- An attempt at a command with a given command line: without a process it stops with a fault,
with a process the result is what the process says. -/
structure Of (command : String) (argv : List Json) (t : Try) : Prop where
  unstarted : t.process = none → ∃ e, t.result = .error e
  started : ∀ d ∈ t.process, words argv = .ok d.call.argv ∧ t.result = verdict command d

/-- The process of an attempt found the daemon stuck. -/
def Stuck (command : String) (t : Try) : Prop := ∃ d ∈ t.process, FoundStuck command d

/-- An attempt that stopped before it had a command line. -/
def failed (e : Fault) : Try := ⟨none, .error e⟩

theorem of_failed (command : String) (e : Fault) : (failed e).Of command [] :=
  ⟨fun _ => ⟨e, rfl⟩, by simp [failed]⟩

@[simp] theorem deeds_failed (e : Fault) : (failed e).deeds = [] := rfl

end Try

@[simp] theorem plays_setStarted (started : Bool)
    (Q : Except Fault Unit → List Deed → State → Prop) :
    (setStarted id started).Plays children Q ds s ↔
      Q (.ok ()) ds (s.setHandle id fun h => { h with started }) := by
  have hnone := Deed.ofWrite_eq_nil (State.kept_setStarted s id started).world.longer
  rw [setStarted, plays_modify, hnone, List.append_nil]

/-- How an attempt that begins in one state and ends in another is told. -/
structure Attempted (children : Children) (n : Nat) (command : String) (argv : List Json)
    (s : State) (r : Except Fault RunResult) (t : Try) (s' : State) : Prop where
  attempt : t.Of command argv
  result : r = t.result
  started : t.process ≠ none ↔ Ready s n argv
  stuck : t.Stuck command ↔ ∃ e, r = .error e ∧ isStuck e = true
  kept : children.Quiet → s.Kept s'
  since : children.Quiet → ∀ d ∈ t.process, d.state.Kept s'

theorem Attempted.keep {command : String} {argv : List Json} {r : Except Fault RunResult}
    {t : Try} {s'' : State} (h : Attempted children n command argv s r t s')
    (hs : s'.Kept s'') : Attempted children n command argv s r t s'' :=
  ⟨h.attempt, h.result, h.started, h.stuck, fun hquiet => (h.kept hquiet).trans hs,
    fun hquiet d hd => (h.since hquiet d hd).trans hs⟩

/-- A call of the checker from a state in which at most the mark of a daemon has changed. -/
theorem plays_invoke_attempted {command : String} {argv : List Json} {s₁ : State}
    (hs₁ : s.Kept s₁) (hready : Ready s₁ n argv ↔ Ready s n argv) :
    (invoke n argv command).Plays children (fun r ds' s' => ∃ t,
      Attempted children n command argv s r t s' ∧ ds' = ds ++ t.deeds) ds s₁ := by
  refine plays_invoke (fun e s' hnot hfailure hs' => ?_) fun d s' hyes hwords hd hs' => ?_
  · refine ⟨⟨none, .error e⟩, ⟨⟨fun _ => ⟨e, rfl⟩, by simp⟩, rfl, ?_, ?_, fun _ =>
      hs₁.trans hs'.toKept, by simp⟩, by simp [Try.deeds]⟩
    · simpa [← hready] using hnot
    · simp [Try.Stuck, isStuck_of_not_failure hfailure]
  · refine ⟨⟨some d, verdict command d⟩, ⟨⟨by simp, ?_⟩, rfl, ?_, ?_, fun hquiet =>
      hs₁.trans (hd.trans (hs' hquiet)).toKept, ?_⟩, by simp [Try.deeds]⟩
    · rintro d' ⟨⟩
      exact ⟨hwords, rfl⟩
    · simpa [← hready] using hyes
    · simpa [Try.Stuck] using foundStuck_iff command d
    · rintro hquiet d' ⟨⟩
      exact (hs' hquiet).toKept

theorem plays_attempt {command : String} {argv : List Json} :
    (Daemon.attempt n id argv command).Plays children (fun r ds' s' => ∃ t,
      Attempted children n command argv s r t s' ∧ ds' = ds ++ t.deeds) ds s := by
  -- a fault is passed on; that the mark may be set back does not matter
  have herror : ∀ started e ds' s', (∃ t, Attempted children n command argv s (.error e) t s' ∧
      ds' = ds ++ t.deeds) → (do
        if e.cls.isA .executableNotFound then setStarted id started
        throw e : Op RunResult).Plays children (fun r ds' s' => ∃ t,
      Attempted children n command argv s r t s' ∧ ds' = ds ++ t.deeds) ds' s' := by
    rintro started e ds' s' ⟨t, ht, hds⟩
    split
    · simp only [plays_bind, plays_setStarted, then_ok, plays_throw]
      exact ⟨t, ht.keep (State.kept_setStarted s' id started), hds⟩
    · simp only [plays_throw]
      exact ⟨t, ht, hds⟩
  rw [Daemon.attempt]
  simp only [plays_bind, plays_state, then_ok]
  split
  · simp only [plays_bind, plays_setStarted, then_ok, Op.plays_attempt]
    have hready : Ready (s.setHandle id fun h => { h with started := true }) n argv ↔
        Ready s n argv :=
      ⟨fun h => ⟨h.cwd, h.environment, h.words⟩, fun h => ⟨h.cwd, h.environment, h.words⟩⟩
    refine (plays_invoke_attempted (State.kept_setStarted s id true) hready).mono
      fun r ds' s' h => ?_
    cases r with
    | ok r => exact (plays_pure r).2 h
    | error e => exact herror _ e ds' s' h
  · simp only [plays_bind, then_ok, Op.plays_attempt]
    refine (plays_invoke_attempted (.refl s) Iff.rfl).mono fun r ds' s' h => ?_
    cases r with
    | ok r => exact (plays_pure r).2 h
    | error e => exact herror _ e ds' s' h

/-! ## Giving a command -/

/-- A command line of a daemon command, worked out in a state with some handle. -/
def IsLine (s : State) (n : Nat) (command : String) (args argv : List Json) : Prop :=
  ∃ h, (s.workspace n).daemonArgv s.world h command args = .ok argv

theorem plays_argv {Q : Except Fault (List Json) → List Deed → State → Prop} {command : String}
    {args : List Json}
    (hok : ∀ id s' argv, Found s n id s' →
      (s.workspace n).daemonArgv s.world (s'.handle id) command args = .ok argv →
      Q (.ok argv) ds s')
    (herror : ∀ e s', (Prepared s n → s' = s) → Q (.error e) ds s') :
    (argv n command args).Plays children Q ds s := by
  rw [argv]
  simp only [plays_bind]
  refine plays_handle (fun id s' hfound => ?_) fun e _ hnone =>
    (then_error _ _ _).2 (herror e s fun _ => rfl)
  simp only [then_ok, plays_bind, plays_state, plays_look]
  cases hargv : (s'.workspace n).daemonArgv s'.world (s'.handle id) command args with
  | error e =>
    refine herror e s' fun hprepared => ?_
    obtain ⟨id', hfits, _⟩ := hprepared
    exact hfound.same id' hfits
  | ok argv =>
    refine hok id s' argv hfound ?_
    rw [← hargv, State.workspace_of_core hfound.core, hfound.world]

/-- A command that is given is prepared: the handle is looked up, the command line is worked out
and directories are made. If all this has been done before, nothing changes. -/
theorem plays_give {Q : Except Fault RunResult → List Deed → State → Prop} {command : String}
    {args : List Json} {bound : Int} {recover : Option (Fault → Op Unit)}
    (hunprepared : ∀ e s', (Prepared s n → s' = s) → Q (.error e) ds s')
    (hattempts : ∀ id argv s', IsLine s n command args argv → Prepared s' n →
      (Prepared s n → s' = s) →
      (Retry.bounded bound isStuck (fun _ => (Daemon.attempt n id argv command).run)
        (between recover bound s'.daemons.stuckDelay)).Plays children Q ds s') :
    (give n command args bound recover).Plays children Q ds s := by
  rw [give]
  simp only [plays_bind]
  refine plays_argv (fun id s₁ argv hfound hline => ?_) fun e s' hsame =>
    (then_error _ _ _).2 (hunprepared e s' hsame)
  simp only [then_ok, plays_bind, plays_handle_of_fits hfound.fits, withHandle, plays_state,
    plays_act]
  obtain ⟨⟨files, hworld, hbounds, hgrown⟩, hhoused⟩ :=
    (s₁.handle id).exec_ensureDirectories s₁.world
  have hwrite : Deed.ofWrite s₁
      { s₁ with world := ((s₁.handle id).ensureDirectories.exec s₁.world).2 } = [] := by
    rw [hworld]
    exact Deed.ofWrite_eq_nil (Files.Tree.within_of_forall hbounds hgrown fun _ => rfl)
  -- in a prepared state the handle that is found is the prepared one, and its directories are there
  have hsame : Prepared s n → (s₁.handle id).ensureDirectories.exec s₁.world = (.ok (), s₁.world) ∧
      s₁ = s := by
    rintro ⟨id', hfits, hhoused'⟩
    obtain rfl := hfound.same id' hfits
    obtain rfl : id' = id := Option.some.inj (hfits.entry.symm.trans hfound.fits.entry)
    exact ⟨Handle.exec_ensureDirectories_of_housed hhoused', rfl⟩
  rw [hwrite, List.append_nil]
  generalize (s₁.handle id).ensureDirectories.exec s₁.world = made at hworld hhoused hsame ⊢
  obtain ⟨r, w⟩ := made
  obtain rfl : w = { s₁.world with files } := hworld
  cases r with
  | error e =>
    refine (then_error _ _ _).2 (hunprepared e _ fun h => ?_)
    exact absurd (hsame h).1 (by simp)
  | ok u =>
    rw [then_ok, plays_bind, plays_state, then_ok, plays_iff_run]
    refine hattempts id argv _ ⟨_, hline⟩ ⟨id, ⟨hfound.fits.entry, ?_⟩, hhoused rfl⟩ ?_
    · obtain ⟨configured, hconfigured, hpath⟩ := hfound.fits.status
      exact ⟨configured, hconfigured, hpath⟩
    · intro h
      obtain ⟨hnothing, rfl⟩ := hsame h
      rw [(Prod.mk.inj hnothing).2]

end Daemon

end Overseer
