import Overseer.Proofs.Twins

set_option autoImplicit false

/-! # Jobs side by side

A job on a registration goes the same way in twin states: everything that it looks at is the same in
both, and whatever it does keeps them twins. One lemma for each operation says so, from the lookup
of the handle up to whole jobs (`Job.paired_operation`). -/

namespace Overseer

/-! ## Looking at worlds -/

section Looking

variable {w w' : World}

theorem World.expandSetting_of_environment (h : w'.environment = w.environment) (root : Path)
    (value : Json) : w'.expandSetting root value = w.expandSetting root value := by
  have hvariable : w'.lookupVariable = w.lookupVariable := by
    funext name
    simp only [World.lookupVariable, h]
  cases value <;> simp only [World.expandSetting, World.expandPath, hvariable]

/-- The arguments of a check are worked out from the variables of the environment. -/
theorem Workspace.runArgs_of_environment (ws : Workspace) (h : w'.environment = w.environment) :
    ws.runArgs w' = ws.runArgs w := by
  simp only [runArgs, checkerArgs, configFile, interpreter, targets, path?_of_environment h,
    World.expandSetting_of_environment h]

namespace Outset

variable {O : Outset} {n : Nat}

theorem Sees.daemonArgv (h : O.Sees n w w') (x : Handle) (command : String) (args : List Json) :
    (O.state.workspace n).daemonArgv w' x command args =
      (O.state.workspace n).daemonArgv w x command args := by
  simp only [Workspace.daemonArgv, h.command]

theorem Sees.ofRoot (h : O.Sees n w w') (identity : Instance) (configured : Option Path) :
    Handle.ofRoot w' identity (O.state.workspace n).root configured =
      Handle.ofRoot w identity (O.state.workspace n).root configured := by
  simp only [Handle.ofRoot, h.root]

/-- What the environment file of a workspace says comes out the same, and the same is written to
the log. -/
theorem Sees.exec_fileItems (h : O.Sees n w w') : ∃ r, ∃ rs : List LogRecord,
    (O.state.workspace n).fileItems.exec w = (r, rs.foldl World.record w) ∧
      (O.state.workspace n).fileItems.exec w' = (r, rs.foldl World.record w') := by
  have hvariable : w'.lookupVariable = w.lookupVariable := by
    funext name
    simp only [World.lookupVariable, h.environment]
  have hitems : Workspace.envFileItems w' = Workspace.envFileItems w := by
    funext text
    simp only [Workspace.envFileItems, h.libraries, hvariable]
  rw [Workspace.fileItems]
  simp only [Daemon.exec_bind, Daemon.exec_look, Workspace.path?_of_environment h.environment]
  cases hpath : (O.state.workspace n).path? w .envFile with
  | error e => exact ⟨_, [], rfl, rfl⟩
  | ok path =>
    cases path with
    | none => exact ⟨_, [], rfl, rfl⟩
    | some path =>
      obtain ⟨hexists, htext⟩ := h.envFile path hpath
      simp only [Daemon.exec_bind, Act.exec_get, Daemon.exec_look, hexists]
      cases w.pathExists path with
      | error e => exact ⟨_, [], rfl, rfl⟩
      | ok there =>
        dsimp only
        split
        · rw [Daemon.exec_bind, Daemon.exec_look, Daemon.exec_bind, Daemon.exec_look, htext, hitems]
          cases Workspace.envFileText w path <;> exact ⟨_, [], rfl, rfl⟩
        · rw [Daemon.exec_bind, Act.exec_log, Daemon.exec_bind, Act.exec_log]
          exact ⟨_, [_], rfl, rfl⟩

/-- The environment of a workspace comes out the same, and the same is written to the log. -/
theorem Sees.exec_environment (h : O.Sees n w w') : ∃ r, ∃ rs : List LogRecord,
    (O.state.workspace n).environment.exec w = (r, rs.foldl World.record w) ∧
      (O.state.workspace n).environment.exec w' = (r, rs.foldl World.record w') := by
  obtain ⟨r, rs, hleft, hright⟩ := h.exec_fileItems
  rw [Workspace.environment]
  simp only [Daemon.exec_bind, Act.exec_get, hleft, hright, h.environment]
  cases r with
  | error e => exact ⟨_, rs, rfl, rfl⟩
  | ok fromFile =>
    simp only [Daemon.exec_look]
    cases (O.state.workspace n).envItems <;> exact ⟨_, rs, rfl, rfl⟩

end Outset

end Looking

namespace Op

variable {α β : Type} {O : Outset} {n : Nat} {ids : Option (Nat × Nat)} {s σ : State}
  {Q : Except Fault α → Except Fault α → State → State → Prop} {R : α → Prop}

/-- Two operations take the same steps from two states, and end as they should. -/
def Twins (O : Outset) (n : Nat) (Q : Except Fault α → Except Fault α → State → State → Prop)
    (p p' : Op α) (s σ : State) : Prop :=
  p.run.Twins O n Q p'.run s σ

theorem twins_pure (a a' : α) :
    Twins O n Q (pure a) (pure a') s σ ↔ Q (.ok a) (.ok a') s σ := Iff.rfl

theorem twins_workspace (m : Nat) (f f' : Workspace → Op α) :
    Twins O n Q (workspace m >>= f) (workspace m >>= f') s σ ↔
      Twins O n Q (f (s.workspace m)) (f' (σ.workspace m)) s σ := Iff.rfl

theorem twins_state (f f' : State → Op α) :
    Twins O n Q (state >>= f) (state >>= f') s σ ↔ Twins O n Q (f s) (f' σ) s σ := Iff.rfl

theorem twins_modify (g g' : State → State) (p p' : Op α) :
    Twins O n Q (do modify g; p) (do modify g'; p') s σ ↔
      O.Leaves (some n) s (g s) ∧ Twins O n Q p p' (g s) (g' σ) := Iff.rfl

/-- What is looked at is the same. -/
theorem twins_look {g g' : World → Except Fault β} {f f' : β → Op α} {r : Except Fault β}
    (hg : g s.world = r) (hg' : g' σ.world = r)
    (herror : ∀ e, r = .error e → Q (.error e) (.error e) s σ)
    (hok : ∀ b, r = .ok b → Twins O n Q (f b) (f' b) s σ) :
    Twins O n Q (look g >>= f) (look g' >>= f') s σ := by
  have hrun : ∀ (g : World → Except Fault β) (f : β → Op α), (look g >>= f).run =
      .read fun s => ExceptT.bindCont f (g s.world) := fun g f => by
    show (look g).run.bind (ExceptT.bindCont f) = _
    rw [run_look]
    rfl
  rw [Twins, hrun, hrun, Prog.Twins, hg, hg']
  cases r with
  | error e => exact herror e rfl
  | ok b => exact hok b rfl

/-- The first part of a sequence may end with a handle, which has a number of its own in each
state. -/
theorem paired_of_twins {p : Op β} {f f' : β → Op α}
    {S : Except Fault β → Except Fault β → State → State → Prop}
    (hp : ∀ s σ, O.Twin n ids s σ → Twins O n S p p s σ)
    (hf : ∀ r r' s σ, S r r' s σ → Prog.Twins O n (Prog.Same O n ids R) (ExceptT.bindCont f r)
      (ExceptT.bindCont f' r') s σ) :
    (p >>= f).Paired O n ids R (p >>= f') := by
  rw [paired_iff_run]
  exact fun s σ h => Prog.Twins.bind ((hp s σ h).mono hf)

theorem paired_iff_twins {p p' : Op α} : p.Paired O n ids R p' ↔
    ∀ s σ, O.Twin n ids s σ → Twins O n (Prog.Same O n ids R) p p' s σ := by
  rw [paired_iff_run]
  rfl

attribute [irreducible] Twins

end Op

namespace Daemon

open Op (state modify look log)

variable {O : Outset} {n : Nat} {ids : Option (Nat × Nat)} {α : Type} {R : α → Prop}

/-! ## Handles -/

/-- What the lookup of a handle comes to. -/
inductive Looked (O : Outset) (n : Nat) (ids : Option (Nat × Nat)) :
    Except Fault Nat → Except Fault Nat → State → State → Prop
  | error {s σ : State} (e : Fault) (h : O.Twin n ids s σ) :
    Looked O n ids (.error e) (.error e) s σ
  | ok {s σ : State} (id id' : Nat) (hids : ids = none ∨ ids = some (id, id'))
    (h : O.Twin n (some (id, id')) s σ) : Looked O n ids (.ok id) (.ok id') s σ

theorem suits_ofRoot {w : World} {identity : Instance} {root : Path} {configured : Option Path}
    {x : Handle} (hx : Handle.ofRoot w identity root configured = .ok x) :
    State.Suits configured x := by
  rintro path rfl
  exact follows_ofRoot hx

theorem twins_handle (hn : O.TakesPart n) {s σ : State} (h : O.Twin n ids s σ) :
    Op.Twins O n (Looked O n ids) (handle n) (handle n) s σ := by
  rw [handle, Op.twins_workspace, h.left.workspace, h.right.workspace]
  refine Op.twins_look h.left.statusFile h.right.statusFile (fun e _ => .error e h)
    fun configured hconfigured => ?_
  rw [Op.twins_state]
  have hhandle := h.handle
  have hsame : Handle.ofRoot s.world s.daemons.identity (O.state.workspace n).root configured =
      Handle.ofRoot σ.world σ.daemons.identity (O.state.workspace n).root configured := by
    rw [h.left.daemons, h.right.daemons]
    exact h.world.sees.ofRoot _ _
  -- nobody who has looked up a handle makes a new one
  have hnew : ids = none → Op.Twins O n (Looked O n ids)
      (do
        let x ← look fun w =>
          Handle.ofRoot w s.daemons.identity (O.state.workspace n).root configured
        modify fun s₁ => { s₁ with
          handles := s₁.handles ++ [x]
          handleOf := s₁.handleOf.insert (O.state.workspace n).key s.handles.length }
        pure s.handles.length)
      (do
        let x ← look fun w =>
          Handle.ofRoot w σ.daemons.identity (O.state.workspace n).root configured
        modify fun s₁ => { s₁ with
          handles := s₁.handles ++ [x]
          handleOf := s₁.handleOf.insert (O.state.workspace n).key σ.handles.length }
        pure σ.handles.length) s σ := by
    rintro rfl
    refine Op.twins_look hsame rfl (fun e _ => .error e h) fun x hx => ?_
    have huses : O.Uses n x := .made h.right.world (h.right.statusFile.trans hconfigured)
      (h.right.daemons ▸ hx) x.started
    obtain ⟨hleaves, htwin⟩ := h.steps_withNewHandle hn huses fun configured' hconfigured' => by
      cases hconfigured.symm.trans hconfigured'
      exact suits_ofRoot hx
    rw [Op.twins_modify, Op.twins_pure]
    exact ⟨hleaves, .ok _ _ (.inl rfl) htwin⟩
  cases hid : s.handleOf.get? (O.state.key n) with
  | none =>
    have hid' : σ.handleOf.get? (O.state.key n) = none := by
      rw [hid, Option.map_none] at hhandle
      exact Option.map_eq_none_iff.1 hhandle.symm
    have hids : ids = none := Option.eq_none_iff_forall_ne_some.2 fun p hp => by
      have honFile := (h.onFile p hp).1
      rw [hid] at honFile
      exact absurd honFile (by simp)
    rw [State.key] at hid hid'
    simp only [hid, hid']
    exact hnew hids
  | some id =>
    obtain ⟨id', hid', hsame⟩ : ∃ id', σ.handleOf.get? (O.state.key n) = some id' ∧
        σ.handle id' = s.handle id := by
      rw [hid, Option.map_some] at hhandle
      exact Option.map_eq_some_iff.1 hhandle.symm
    have hids : ids = none ∨ ids = some (id, id') := by
      cases ids with
      | none => exact .inl rfl
      | some p =>
        obtain ⟨hp, hp', -⟩ := h.onFile p rfl
        rw [hid] at hp
        rw [hid'] at hp'
        cases hp
        cases hp'
        exact .inr rfl
    have hfound : State.Suits configured (s.handle id) →
        Op.Twins O n (Looked O n ids) (pure id) (pure id') s σ := by
      intro hsuits
      rw [Op.twins_pure]
      refine .ok id id' hids { h with onFile := fun p hp => ?_ }
      cases hp
      refine ⟨hid, hid', fun configured' hconfigured' => ?_⟩
      cases hconfigured.symm.trans hconfigured'
      exact hsuits
    have hkey := hid
    have hkey' := hid'
    rw [State.key] at hkey hkey'
    simp only [hkey, hkey', hsame]
    cases configured with
    | none => exact hfound (by simp [State.Suits])
    | some path =>
      by_cases hpath : (s.handle id).statusFile = path
      · simp only [hpath, decide_true, if_true]
        exact hfound (by simpa [State.Suits] using hpath)
      · simp only [hpath, decide_false, Bool.false_eq_true, if_false]
        refine hnew (hids.resolve_right fun hsome => hpath ?_)
        exact (h.onFile _ hsome).2.2 _ hconfigured path rfl

/-- What follows may use the handle that is looked up. -/
theorem paired_handle (hn : O.TakesPart n) {f f' : Nat → Op α}
    (hf : ∀ id id', (f id).Paired O n (some (id, id')) R (f' id')) :
    (handle n >>= f).Paired O n ids R (handle n >>= f') := by
  refine Op.paired_of_twins (fun s σ h => twins_handle hn h) fun r r' s σ hr => ?_
  cases hr with
  | error e h => exact ⟨rfl, fun a ha => absurd ha (by simp), h⟩
  | ok id id' hids h =>
    have hpaired := hf id id'
    rw [Op.paired_iff_run] at hpaired
    exact (hpaired s σ h).mono fun r r' s σ hr => ⟨hr.eq, hr.ok, hr.twin.weaken hids⟩

section TakesPart

variable (hn : O.TakesPart n)
include hn

/-- Something is done in the world with the handle that has been looked up. -/
theorem paired_withHandle {f : Handle → Act α} {d : Handle → Doing} {id id' : Nat}
    (hafter : ∀ x w, ((f x).exec w).2 = (d x).after w) (hdoes : ∀ x, O.Uses n x → O.Does n (d x))
    (hsees : ∀ x w w', O.Uses n x → O.Sees n w w' → ((f x).exec w').1 = ((f x).exec w).1) :
    (withHandle id f).Paired O n (some (id, id')) (fun _ => True) (withHandle id' f) := by
  refine Op.paired_state fun s σ h => Op.paired_act fun s₁ σ₁ h₁ => ?_
  have huses := h.uses hn.registered
  rw [← h.handle_eq, hafter, hafter]
  exact ⟨hsees _ _ _ huses h₁.world.sees, h₁.steps_doing hn (hdoes _ huses)⟩

theorem paired_ensureDirectories {id id' : Nat} :
    (withHandle id Handle.ensureDirectories).Paired O n (some (id, id')) (fun _ => True)
      (withHandle id' Handle.ensureDirectories) :=
  paired_withHandle hn (d := .directories) (fun _ _ => rfl) (fun _ hx => hx)
    fun x _ _ hx h => h.directories x hx

theorem paired_removeStatusFile {id id' : Nat} :
    (withHandle id Handle.removeStatusFile).Paired O n (some (id, id')) (fun _ => True)
      (withHandle id' Handle.removeStatusFile) :=
  paired_withHandle hn (d := .removal) (fun _ _ => rfl) (fun _ hx => hx)
    fun x _ _ hx h => h.removal x hx

theorem paired_setStarted {id id' : Nat} (started : Bool) :
    (setStarted id started).Paired O n (some (id, id')) (fun _ => True) (setStarted id' started) :=
  Op.paired_modify fun _ _ h => h.steps_mark hn rfl started

theorem paired_argv (command : String) (args : List Json) :
    (argv n command args).Paired O n ids (fun _ => True) (argv n command args) := by
  rw [argv]
  refine paired_handle hn fun id id' => Op.paired_state fun s σ h => ?_
  refine Op.paired_look (fun s₁ σ₁ h₁ => ?_) fun _ _ _ _ _ => trivial
  rw [h.left.workspace, h.right.workspace, h.handle_eq]
  exact h₁.world.sees.daemonArgv _ _ _

/-! ## Calls -/

theorem paired_startChecker (call : Call) :
    (startChecker call).Paired O n ids (fun e => ∃ b, O.acts n b ∧ e = b.ended call)
      (startChecker call) := by
  rw [startChecker]
  refine (Op.paired_attempt (Op.paired_spawn hn call)).bind fun r hr => ?_
  cases r with
  | ok ended => exact Op.paired_pure (hr ended rfl)
  | error e =>
    simp only
    split
    · exact (Op.paired_log hn _ _ _).bind fun _ _ => Op.paired_throw _
    · exact Op.paired_throw e

/-- What a call of the checker hands on is empty or was written by a child process. -/
def Heard (O : Outset) (n : Nat) (r : RunResult) : Prop :=
  r.stdout = "" ∨ ∃ b, O.acts n b ∧ r.stdout = Text.outputText b.stdout

theorem paired_invoke (argv : List Json) (command : String) :
    (invoke n argv command).Paired O n ids (Heard O n) (invoke n argv command) := by
  rw [invoke]
  refine Op.paired_workspace.bind ?_
  rintro _ rfl
  refine (Op.paired_look (P := fun _ => True) (fun s σ h => ?_) fun _ _ _ _ _ => trivial).bind
    fun cwd _ => ?_
  · exact Workspace.cwd_of_environment h.world.sees.environment
  refine (Op.paired_act fun s σ h => ?_).bind fun env _ => ?_
  · obtain ⟨r, rs, hright, hleft⟩ := h.world.sees.exec_environment
    rw [hleft, hright]
    exact ⟨rfl, h.steps_records hn rs⟩
  refine (Op.paired_look (P := fun _ => True) (fun _ _ _ => rfl) fun _ _ _ _ _ => trivial).bind
    fun line _ => ?_
  refine (Op.paired_log hn _ _ _).bind fun _ _ => ?_
  refine (paired_startChecker hn _).bind ?_
  rintro _ ⟨b, hb, rfl⟩
  dsimp only
  split
  · exact (Op.paired_log hn _ _ _).bind fun _ _ => Op.paired_pure (.inl rfl)
  · split
    · have hheard : ∀ outcome, Heard O n
          ⟨(b.ended ⟨line, some cwd, some env⟩).stdout, outcome,
            b.ended ⟨line, some cwd, some env⟩⟩ :=
        fun _ => .inr ⟨b, hb, rfl⟩
      split
      · refine (Op.paired_log hn _ _ _).bind fun _ _ => ?_
        exact (Op.paired_log hn _ _ _).bind fun _ _ => Op.paired_pure (hheard _)
      · exact (Op.paired_log hn _ _ _).bind fun _ _ => Op.paired_pure (hheard _)
    · exact (Op.paired_log hn _ _ _).bind fun _ _ => Op.paired_throw _

theorem paired_attempt {id id' : Nat} (argv : List Json) (command : String) :
    (attempt n id argv command).Paired O n (some (id, id')) (Heard O n)
      (attempt n id' argv command) := by
  -- a command that could not be started leaves the handle as it was
  have hfail : ∀ (e : Fault) (started : Bool),
      (if e.cls.isA .executableNotFound = true then (do setStarted id started; throw e)
        else throw e : Op RunResult).Paired O n (some (id, id')) (Heard O n)
      (if e.cls.isA .executableNotFound = true then (do setStarted id' started; throw e)
        else throw e) := by
    intro e started
    split
    · exact (paired_setStarted hn started).bind fun _ _ => Op.paired_throw e
    · exact Op.paired_throw e
  have hinvoke : Op.Paired O n (some (id, id')) _ _ _ :=
    Op.paired_attempt (paired_invoke hn argv command)
  rw [attempt, attempt]
  refine Op.paired_state fun s σ h => ?_
  have hstarted : s.started id = σ.started id' := by rw [State.started, h.handle_eq, State.started]
  rw [hstarted]
  dsimp only
  split
  · refine (paired_setStarted hn true).bind fun _ _ => hinvoke.bind fun r hr => ?_
    cases r with
    | ok r => exact Op.paired_pure (hr r rfl)
    | error e => exact hfail e _
  · refine hinvoke.bind fun r hr => ?_
    cases r with
    | ok r => exact Op.paired_pure (hr r rfl)
    | error e => exact hfail e _

/-! ## Commands -/

omit hn in
theorem paired_attemptsFrom {retries : Fault → Bool}
    {attempt attempt' : Nat → Prog (Except Fault α)}
    {between : Nat → Fault → Prog (Except Fault Unit)}
    (hattempt : ∀ k, (attempt k).Paired O n ids R (attempt' k))
    (hbetween : ∀ k e, (between k e).Paired O n ids (fun _ => True) (between k e))
    (left number : Nat) : (Retry.attemptsFrom retries attempt between left number).Paired O n ids R
      (Retry.attemptsFrom retries attempt' between left number) := by
  induction left generalizing number with
  | zero => exact hattempt number
  | succ left ih =>
    rw [Retry.attemptsFrom, Retry.attemptsFrom]
    refine (hattempt number).seq (fun a ha => ?_) fun e => ?_
    · exact Prog.paired_return fun _ h => Except.ok.inj h ▸ ha
    · simp only
      split
      · refine (hbetween number e).seq (fun _ _ => ih (number + 1)) fun e => ?_
        exact Prog.paired_return fun _ h => absurd h (by simp)
      · exact Prog.paired_return fun _ h => absurd h (by simp)

omit hn in
theorem paired_bounded {retries : Fault → Bool} {attempt attempt' : Nat → Prog (Except Fault α)}
    {between : Nat → Fault → Prog (Except Fault Unit)}
    (hattempt : ∀ k, (attempt k).Paired O n ids R (attempt' k))
    (hbetween : ∀ k e, (between k e).Paired O n ids (fun _ => True) (between k e)) (bound : Int) :
    (Retry.bounded bound retries attempt between).Paired O n ids R
      (Retry.bounded bound retries attempt' between) := by
  rw [Retry.bounded, Retry.bounded]
  split
  · exact Prog.paired_return fun _ h => absurd h (by simp)
  · exact paired_attemptsFrom hattempt hbetween _ _

theorem paired_between {recover : Option (Fault → Op Unit)}
    (hrecover : ∀ f ∈ recover, ∀ e, (f e).Paired O n ids (fun _ => True) (f e))
    (bound delay : Int) (number : Nat) (e : Fault) :
    (between recover bound delay number e).Paired O n ids (fun _ => True)
      (between recover bound delay number e) := by
  rw [between_eq_run, ← Op.paired_iff_run]
  refine (Op.paired_log hn _ _ _).bind fun _ _ => ?_
  have hdone : Op.Paired O n ids (fun _ => True) (recover.elim (pure ()) fun f => f e)
      (recover.elim (pure ()) fun f => f e) := by
    cases recover with
    | none => exact Op.paired_pure trivial
    | some f => exact hrecover f rfl e
  refine hdone.bind fun _ _ => ?_
  split
  · exact Op.paired_sleep hn delay
  · exact Op.paired_pure trivial

theorem paired_give {recover : Option (Fault → Op Unit)}
    (hrecover : ∀ (ids : Option (Nat × Nat)), ∀ f ∈ recover, ∀ e,
      (f e).Paired O n ids (fun _ => True) (f e))
    (command : String) (args : List Json) (bound : Int) :
    (give n command args bound recover).Paired O n ids (Heard O n)
      (give n command args bound recover) := by
  rw [give]
  refine (paired_argv hn command args).bind fun argv _ => paired_handle hn fun id id' => ?_
  refine (paired_ensureDirectories hn).bind fun _ _ => Op.paired_state fun s σ h => ?_
  rw [h.left.daemons, h.right.daemons, Op.paired_iff_run]
  refine paired_bounded (fun _ => ?_) (fun k e => paired_between hn (hrecover _) _ _ k e) bound
  exact Op.paired_iff_run.1 (paired_attempt hn argv command)

theorem paired_kill : (kill n).Paired O n ids (fun _ => True) (kill n) := by
  rw [kill]
  refine paired_handle hn fun id id' => ?_
  refine (Op.paired_attempt (paired_give hn (fun _ f hf => absurd hf (by simp)) "kill" [] 1)).bind
    fun r _ => ?_
  cases r with
  | ok r => exact (paired_setStarted hn false).bind fun _ _ => Op.paired_pure trivial
  | error e =>
    simp only
    split
    · refine Op.paired_workspace.bind ?_
      rintro _ rfl
      exact (Op.paired_log hn _ _ _).bind fun _ _ => Op.paired_pure trivial
    · exact Op.paired_throw e

theorem paired_recoverStuck : (recoverStuck n).Paired O n ids (fun _ => True) (recoverStuck n) := by
  rw [recoverStuck]
  refine Op.paired_workspace.bind ?_
  rintro _ rfl
  refine (Op.paired_log hn _ _ _).bind fun _ _ => (paired_kill hn).bind fun killed _ => ?_
  split
  · refine paired_handle hn fun id id' => ?_
    exact (paired_removeStatusFile hn).bind fun _ _ => paired_setStarted hn false
  · exact Op.paired_pure trivial

theorem paired_run (command : String) (args : List Json) (retryOnStuck : Bool) :
    (run n command args retryOnStuck).Paired O n ids (Heard O n)
      (run n command args retryOnStuck) := by
  rw [run]
  refine Op.paired_state fun s σ h => ?_
  rw [h.left.daemons, h.right.daemons]
  refine paired_give hn (fun _ f hf e => ?_) command args _
  cases hf
  exact paired_recoverStuck hn

/-! ## Stopping -/

theorem paired_stopAttempt (argv : List Json) (number : Nat) :
    (stopAttempt n argv number).Paired O n ids (fun _ => True) (stopAttempt n argv number) := by
  rw [stopAttempt]
  refine (Op.paired_attempt (paired_invoke hn argv "stop")).bind fun r _ => ?_
  cases r with
  | ok r => exact Op.paired_pure trivial
  | error e =>
    simp only
    split
    · refine Op.paired_workspace.bind ?_
      rintro _ rfl
      exact (Op.paired_log hn _ _ _).bind fun _ _ => Op.paired_pure trivial
    · exact Op.paired_throw e

theorem paired_stop : (stop n).Paired O n ids (fun _ => True) (stop n) := by
  -- a failure ends as a refusal, any other fault goes on
  have hfail : ∀ (ids : Option (Nat × Nat)) (e : Fault) (text : String),
      (if isFailure e = true then (do log .warning .adapter text; return false)
        else throw e : Op Bool).Paired O n ids (fun _ => True)
      (if isFailure e = true then (do log .warning .adapter text; return false) else throw e) := by
    intro ids e text
    split
    · exact (Op.paired_log hn _ _ _).bind fun _ _ => Op.paired_pure trivial
    · exact Op.paired_throw e
  rw [stop]
  refine paired_handle hn fun id id' => Op.paired_state fun s σ h => ?_
  have hstarted : s.started id = σ.started id' := by rw [State.started, h.handle_eq, State.started]
  have hfile : (s.handle id).statusFileExists s.world =
      (σ.handle id').statusFileExists σ.world := by
    rw [← h.handle_eq]
    exact h.world.sees.status _ (h.uses hn.registered)
  have habsent : isAbsent s id = isAbsent σ id' := by rw [isAbsent, hstarted, hfile, isAbsent]
  rw [h.left.workspace, h.right.workspace, h.left.daemons, h.right.daemons, habsent]
  refine (Op.paired_look (P := fun _ => True) (fun _ _ _ => rfl) fun _ _ _ _ _ => trivial).bind
    fun absent _ => ?_
  dsimp only
  split
  · exact (Op.paired_log hn _ _ _).bind fun _ _ => Op.paired_pure trivial
  · refine (Op.paired_attempt (paired_argv hn "stop" [])).bind fun r _ => ?_
    cases r with
    | error e => exact hfail _ e _
    | ok argv =>
      refine (Op.paired_attempt (P := fun _ => True) ?_).bind fun r _ => ?_
      · rw [Op.paired_iff_run]
        refine paired_bounded (fun k => ?_)
          (fun k e => paired_between hn (fun f hf => absurd hf (by simp)) _ _ k e) 2
        exact Op.paired_iff_run.1 (paired_stopAttempt hn argv k)
      · cases r with
        | error e => exact hfail _ e _
        | ok stopped =>
          refine (paired_setStarted hn false).bind fun _ _ => ?_
          exact (Op.paired_log hn _ _ _).bind fun _ _ => Op.paired_pure trivial

end TakesPart

end Daemon

namespace Check

open Op (state modify look log)

variable {O : Outset} {n : Nat} {ids : Option (Nat × Nat)} {α : Type} {R : α → Prop}
  (hn : O.TakesPart n)
include hn

/-! ## Parts of a check -/

/-- What follows may use the lock, which may have any number. -/
theorem paired_lockFor {f f' : Nat → Op α} (hf : ∀ l l', (f l).Paired O n ids R (f' l')) :
    (lockFor n >>= f).Paired O n ids R (lockFor n >>= f') := by
  refine Op.paired_of_twins (S := fun r r' s σ =>
    ∃ l l', r = .ok l ∧ r' = .ok l' ∧ O.Twin n ids s σ) (fun s σ h => ?_) ?_
  · have hlock := h.lock
    rw [lockFor, Op.twins_state, h.left.workspace, h.right.workspace]
    rw [State.key] at hlock
    cases hl : s.lockOf.get? (O.state.workspace n).key with
    | some l =>
      rw [hl, Option.isSome_some] at hlock
      obtain ⟨l', hl'⟩ := Option.isSome_iff_exists.1 hlock.symm
      simp only [hl, hl']
      rw [Op.twins_pure]
      exact ⟨l, l', rfl, rfl, h⟩
    | none =>
      rw [hl, Option.isSome_none] at hlock
      have hl' : σ.lockOf.get? (O.state.workspace n).key = none :=
        Option.isSome_eq_false_iff.1 hlock.symm |> Option.isNone_iff_eq_none.1
      simp only [hl, hl']
      rw [Op.twins_modify, Op.twins_pure]
      obtain ⟨hleaves, htwin⟩ := h.steps_lock hn s.lockCount σ.lockCount (s.lockCount + 1)
        (σ.lockCount + 1)
      exact ⟨hleaves, _, _, rfl, rfl, htwin⟩
  · rintro _ _ s σ ⟨l, l', rfl, rfl, h⟩
    exact Op.paired_iff_run.1 (hf l l') s σ h

/-- The collection of a registration is there and has the number that it had. -/
theorem paired_collection : (collection n).Paired O n ids
    (fun id => O.state.store.current.get? (O.state.key n) = some id) (collection n) := by
  have hstore : ∀ s, O.Amid s → ∃ id, O.state.store.current.get? (O.state.key n) = some id ∧
      s.store.collection (O.state.workspace n).key = (s.store, id) := by
    intro s hs
    obtain ⟨id, c, hid, hcurrent, -⟩ := hs.current n hn.registered
    rw [State.key] at hcurrent
    exact ⟨id, hid, by rw [Store.collection, hcurrent]⟩
  rw [collection, Op.paired_iff_twins]
  intro s σ h
  obtain ⟨id, hid, hs⟩ := hstore s h.left
  obtain ⟨id', hid', hσ⟩ := hstore σ h.right
  obtain rfl := Option.some.inj (hid.symm.trans hid')
  rw [Op.twins_state, h.left.workspace, h.right.workspace, hs, hσ, Op.twins_modify, Op.twins_pure]
  exact ⟨.refl s, rfl, fun _ ha => Except.ok.inj ha ▸ hid, h⟩

theorem paired_change {id : Nat} (hid : O.state.store.current.get? (O.state.key n) = some id)
    {f : Collection → Collection × Delta} (hf : ∀ c, (f c).1.workspace = c.workspace) :
    (change id f).Paired O n ids (fun _ => True) (change id f) :=
  Op.paired_modify fun _ _ h => h.steps_withChange hn hid hf

theorem paired_notify (notice : Notice) :
    (notify notice).Paired O n ids (fun _ => True) (notify notice) := by
  rw [notify]
  refine Op.paired_state fun s σ h => ?_
  rw [h.left.takesNotices, h.right.takesNotices]
  split
  · exact Op.paired_modify fun s σ h => h.steps_aside _ _ s.sleeps σ.sleeps
  · exact Op.paired_log hn _ _ _

theorem paired_failed (f : Failure) (cause : Option FaultClass) :
    (failed n f cause).Paired O n ids (O.Names n) (failed n f cause) := by
  rw [failed]
  refine Op.paired_workspace.bind ?_
  rintro _ rfl
  dsimp only
  refine (Op.paired_log hn _ _ _).bind fun _ _ => ?_
  split
  · exact (paired_notify hn _).bind fun _ _ => Op.paired_pure rfl
  · exact Op.paired_pure rfl

omit hn in
/-- What comes of a contained call: its result, or a result for the workspace. -/
def Held (O : Outset) (n : Nat) : Except CheckResult RunResult → Prop
  | .ok run => Daemon.Heard O n run
  | .error result => O.Names n result

theorem paired_contained {call : Op RunResult}
    (hcall : call.Paired O n ids (Daemon.Heard O n) call) (subject : String) :
    (contained n subject call).Paired O n ids (Held O n) (contained n subject call) := by
  rw [contained]
  refine (Op.paired_attempt hcall).bind fun r hr => ?_
  cases r with
  | ok run => exact Op.paired_pure (hr run rfl)
  | error e =>
    cases e with
    | failure f cause =>
      exact (paired_failed hn f cause).bind fun _ hnames => Op.paired_pure hnames
    | _ =>
      refine (Op.paired_log hn _ _ _).bind fun _ _ => Op.paired_workspace.bind ?_
      rintro _ rfl
      exact Op.paired_pure rfl

theorem paired_serialized {check : Op CheckResult}
    (hcheck : check.Paired O n ids (O.Names n) check) :
    (serialized n check).Paired O n ids (O.Names n) (serialized n check) := by
  rw [serialized]
  refine paired_lockFor hn fun l l' => Op.paired_withLock hn ?_
  refine Op.paired_isRemoved.bind fun removed _ => ?_
  split
  · refine Op.paired_workspace.bind ?_
    rintro _ rfl
    exact (Op.paired_log hn _ _ _).bind fun _ _ => Op.paired_pure rfl
  · exact hcheck

omit hn in
theorem paired_isStale {id : Nat} (hid : O.state.store.current.get? (O.state.key n) = some id) :
    (isStale n id).Paired O n ids (fun _ => True) (isStale n id) := by
  rw [isStale]
  refine Op.paired_state fun s σ h => ?_
  rw [h.collection id hid, State.registration, State.registration, h.left.registrations,
    h.right.registrations]
  exact Op.paired_pure trivial

/-! ## Whole workspaces -/

theorem paired_install {id : Nat} (hid : O.state.store.current.get? (O.state.key n) = some id)
    {run : RunResult} (hrun : Daemon.Heard O n run) :
    (install n id run).Paired O n ids (O.Names n) (install n id run) := by
  rw [install]
  refine (Op.paired_look (P := fun found => Output.parse run.stdout = .ok found) (fun _ _ _ => rfl)
    fun _ _ _ found hfound => ?_).bind fun found hfound => ?_
  · cases hparse : Output.parse run.stdout with
    | error e =>
      rw [hparse] at hfound
      exact absurd hfound (by simp [Except.mapError])
    | ok found' =>
      rw [hparse] at hfound
      exact congrArg Except.ok (Except.ok.inj hfound)
  refine (Op.paired_look (P := fun _ => True) (fun s σ h => ?_) fun _ _ _ _ _ => trivial).bind
    fun files _ => ?_
  · rcases hrun with hempty | ⟨b, hb, hstdout⟩
    · have hnone : Output.parse "" = .ok [] := by decide
      rw [hempty, hnone] at hfound
      obtain rfl := Except.ok.inj hfound
      simp only [World.diagnosticsByFile, List.mapM_nil]
    · exact h.world.sees.reported b found hb (hstdout ▸ hfound)
  refine Op.paired_workspace.bind ?_
  rintro _ rfl
  refine (paired_isStale hid).bind fun stale _ => ?_
  dsimp only
  split
  · exact (Op.paired_log hn _ _ _).bind fun _ _ => Op.paired_pure rfl
  · refine (paired_change hn hid fun c => ?_).bind fun _ _ => ?_
    · rw [Collection.replaceFiles, Collection.apply]
      split <;> rfl
    · exact (Op.paired_log hn _ _ _).bind fun _ _ => Op.paired_pure rfl

theorem paired_checkHolding :
    (checkHolding n).Paired O n ids (O.Names n) (checkHolding n) := by
  rw [checkHolding]
  refine (paired_collection hn).bind fun id hid => Op.paired_workspace.bind ?_
  rintro _ rfl
  split
  · refine (Op.paired_log hn _ _ _).bind fun _ _ => (paired_change hn hid fun c => ?_).bind
      fun _ _ => Op.paired_pure rfl
    rw [Collection.clear, Collection.apply]
    split <;> rfl
  · refine (Op.paired_log hn _ _ _).bind fun _ _ => ?_
    dsimp only
    refine (paired_contained hn ?_ _).bind fun r hr => ?_
    · refine (Op.paired_look (P := fun _ => True) (fun s σ h => ?_) fun _ _ _ _ _ => trivial).bind
        fun args _ => Daemon.paired_run hn "run" args true
      exact Workspace.runArgs_of_environment _ h.world.sees.environment
    · cases r with
      | ok run => exact paired_install hn hid hr
      | error result => exact Op.paired_pure hr

theorem paired_stopDaemon : (stopDaemon n).Paired O n ids (O.Names n) (stopDaemon n) := by
  rw [stopDaemon]
  refine (Daemon.paired_stop hn).bind fun stopped _ => Op.paired_workspace.bind ?_
  rintro _ rfl
  exact Op.paired_pure rfl

end Check

/-- Whatever the job, it goes the same way in twin states. -/
theorem Job.paired_operation {O : Outset} {ids : Option (Nat × Nat)} (job : Job)
    (hn : O.TakesPart job.number) :
    job.operation.Paired O job.number ids (O.Names job.number) job.operation := by
  cases job with
  | check n => exact Check.paired_serialized hn (Check.paired_checkHolding hn)
  | restart n =>
    refine Check.paired_serialized hn ?_
    exact (Daemon.paired_stop hn).bind fun _ _ => Check.paired_checkHolding hn
  | stop n => exact Check.paired_stopDaemon hn

end Overseer
