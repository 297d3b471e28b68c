import Overseer.Daemon.Lifecycle
import Overseer.Proofs.Discipline

set_option autoImplicit false

/-! # Calls of the checker

Everything that is done to run, stop or kill a daemon leaves the core of the state alone, takes
no lock and starts no jobs. What such an operation goes through is the list of its dealings
with child processes, latest first. A rule says which process may be started after which
dealings; `calls` is the discipline of keeping to a rule. Each operation has one lemma that says
under which condition on the rule it keeps to it, and how its result comes from its last
dealing.

Stopping and killing handle all failures of the checker. A fault that gets past them comes from
settings or files that do not allow the command to be given (`Unworkable`, `Refused`), or from a
process that could not be started for a reason that is none of the system's (`Raised`). -/

namespace Overseer

/-- A child process that was started, in which state, and how it came back. -/
structure Dealing where
  call : Call
  state : State
  answer : Except Fault Ended

/-- What a call of the checker that ended well says about the end. -/
def RunResult.judge (command : String) (ended : Ended) : RunResult :=
  let outcome := Outcome.classify ended command
  ⟨if outcome = .nothingToCheck then "" else ended.stdout, outcome, ended⟩

/-- The daemon command that a call gives. -/
def Call.command? (c : Call) : Option String :=
  match c.argv with
  | _ :: "--status-file" :: _ :: command :: _ => some command
  | _ :: "-m" :: name :: "--status-file" :: _ :: command :: _ =>
    if name = Program.daemon.moduleName then some command else none
  | _ => none

namespace Daemon

open Op

/-- The discipline of calls of the checker that keep to a rule. Nobody pauses before he has had
dealings with a child process. -/
def calls (rule : List Dealing → State → Call → Prop) : Discipline (List Dealing) where
  write _ s s' := s'.core = s.core
  spawn ds s c := rule ds s c
  answered ds s c e _ _ := ⟨c, s, e⟩ :: ds
  sleep ds _ _ := ds ≠ []
  slept ds _ _ _ := ds
  lock _ _ _ := False
  entered ds _ _ _ _ := ds
  unlock _ _ _ := False
  left ds _ _ := ds
  gather _ _ _ := False
  gathered ds _ _ _ := ds

/-- Dealings each of which a rule allowed. -/
def Ruled (rule : List Dealing → State → Call → Prop) : List Dealing → Prop
  | [] => True
  | d :: ds => rule ds d.state d.call ∧ Ruled rule ds

variable {rule : List Dealing → State → Call → Prop} {ds ds' : List Dealing} {s : State} {n : Nat}

@[simp] theorem calls_write (s' : State) : (calls rule).write ds s s' ↔ s'.core = s.core := Iff.rfl

@[simp] theorem calls_spawn (c : Call) : (calls rule).spawn ds s c ↔ rule ds s c := Iff.rfl

@[simp] theorem calls_sleep (ms : Int) : (calls rule).sleep ds s ms ↔ ds ≠ [] := Iff.rfl

@[simp] theorem calls_answered (c : Call) (e : Except Fault Ended) (s₁ s₂ : State) :
    (calls rule).answered ds s c e s₁ s₂ = ⟨c, s, e⟩ :: ds := rfl

/-! ## Handles -/

/-- A handle has the status file that the settings stand for: the configured one, or else the one
that is named after the root. -/
def Follows (identity : Instance) (configured : Option Path) (h : Handle) : Prop :=
  h.statusFile = configured.getD (Handle.daemonFile identity h.root ".json")

/-- No status file is configured, but the handle on file has one of its own. -/
def Stale (s : State) (n : Nat) : Prop :=
  (s.workspace n).statusFile s.world = .ok none ∧
    ∃ id, s.handleOf.get? (s.key n) = some id ∧ ¬ Follows s.daemons.identity none (s.handle id)

/-- The handle of a workspace has been looked up in a state, which it may have been added to. -/
structure HandleFound (s : State) (n id : Nat) (s' : State) : Prop where
  core : s'.core = s.core
  world : s'.world = s.world
  entry : s'.handleOf.get? (s.key n) = some id
  /-- The status file is what the settings stand for, unless the handle on file is stale. -/
  status : ∃ configured, (s.workspace n).statusFile s.world = .ok configured ∧
    (Follows s.daemons.identity configured (s'.handle id) ↔ ¬ Stale s n)
  /-- A stale handle is used as it is. -/
  stale : Stale s n → s' = s

theorem follows_ofRoot {w : World} {identity : Instance} {root : Path} {configured : Option Path}
    {h : Handle} (hh : Handle.ofRoot w identity root configured = .ok h) :
    Follows identity configured h := by
  simp only [Handle.ofRoot, bind, Except.bind] at hh
  split at hh
  · exact absurd hh (by simp)
  · cases hh
    rfl

theorem root_ofRoot {w : World} {identity : Instance} {root : Path} {configured : Option Path}
    {h : Handle} (hh : Handle.ofRoot w identity root configured = .ok h) :
    w.resolve root = .ok h.root := by
  simp only [Handle.ofRoot, bind, Except.bind] at hh
  split at hh
  · exact absurd hh (by simp)
  · next hroot =>
    cases hh
    exact hroot

theorem not_stale_of_configured {path : Path}
    (hpath : (s.workspace n).statusFile s.world = .ok (some path)) : ¬ Stale s n := fun hstale =>
  absurd (hpath.symm.trans hstale.1) (by simp)

theorem not_stale_of_none (hnone : s.handleOf.get? (s.key n) = none) : ¬ Stale s n := by
  rintro ⟨-, id, hid, -⟩
  rw [hnone] at hid
  exact absurd hid (by simp)

/-- The handle on file is stale, or has the status file that the settings stand for. -/
theorem follows_iff_not_stale {id : Nat} (hnone : (s.workspace n).statusFile s.world = .ok none)
    (hid : s.handleOf.get? (s.key n) = some id) :
    Follows s.daemons.identity none (s.handle id) ↔ ¬ Stale s n := by
  constructor
  · rintro hfollows ⟨-, id', hid', hother⟩
    obtain rfl : id = id' := Option.some.inj (hid.symm.trans hid')
    exact hother hfollows
  · intro hstale
    exact Classical.byContradiction fun hother => hstale ⟨hnone, id, hid, hother⟩

/-- The handle of a workspace cannot be looked up: its status file or its root cannot be worked
out. -/
def Unhandled (n : Nat) (e : Fault) (s : State) : Prop :=
  (s.workspace n).statusFile s.world = .error e ∨ s.world.resolve (s.workspace n).root = .error e

/-- What keeps a command from being given to the daemon of a workspace, in the state in which it
turns out: its handle cannot be looked up, or the program, the directory of the process or its
environment cannot be worked out. -/
inductive Unworkable (n : Nat) (e : Fault) : State → Prop
  | handle {s : State} (h : Unhandled n e s) : Unworkable n e s
  | program {s : State} (h : (s.workspace n).command s.world .daemon = .error e) : Unworkable n e s
  | cwd {s : State} (h : (s.workspace n).cwd s.world = .error e) : Unworkable n e s
  | environment {s : State} (h : ((s.workspace n).environment.exec s.world).1 = .error e) :
    Unworkable n e { s with world := ((s.workspace n).environment.exec s.world).2 }

theorem resolve_of_ofRoot {w : World} {identity : Instance} {root : Path}
    {configured : Option Path} {e : Fault}
    (h : Handle.ofRoot w identity root configured = .error e) : w.resolve root = .error e := by
  simp only [Handle.ofRoot, bind, Except.bind] at h
  split at h
  · next hroot =>
    cases h
    exact hroot
  · exact absurd h (by simp [pure, Except.pure])

theorem command_of_daemonArgv {ws : Workspace} {w : World} {h : Handle} {command : String}
    {args : List Json} {e : Fault} (he : ws.daemonArgv w h command args = .error e) :
    ws.command w .daemon = .error e := by
  simp only [Workspace.daemonArgv, bind, Except.bind] at he
  split at he
  · next hfront =>
    cases he
    exact hfront
  · exact absurd he (by simp [pure, Except.pure])

/-- A handle on file that has the configured status file, if one is configured, is used. -/
theorem handleFound_same {configured : Option Path} {id : Nat}
    (hconfigured : (s.workspace n).statusFile s.world = .ok configured)
    (hid : s.handleOf.get? (s.key n) = some id)
    (hfits : ∀ path ∈ configured, (s.handle id).statusFile = path) : HandleFound s n id s := by
  refine ⟨rfl, rfl, hid, ⟨configured, hconfigured, ?_⟩, fun _ => rfl⟩
  cases configured with
  | none => exact follows_iff_not_stale hconfigured hid
  | some path => exact iff_of_true (hfits path rfl) (not_stale_of_configured hconfigured)

/-- A handle that comes on file follows the settings. -/
theorem handleFound_new {configured : Option Path} {h : Handle}
    (hconfigured : (s.workspace n).statusFile s.world = .ok configured) (hstale : ¬ Stale s n)
    (hh : Handle.ofRoot s.world s.daemons.identity (s.workspace n).root configured = .ok h) :
    HandleFound s n s.handles.length { s with
      handles := s.handles ++ [h]
      handleOf := s.handleOf.insert (s.workspace n).key s.handles.length } := by
  have hfollows := follows_ofRoot hh
  refine ⟨rfl, rfl, by simp [State.key, Assoc.get?_insert], ⟨configured, hconfigured, ?_⟩,
    fun hs => absurd hs hstale⟩
  simpa [State.handle, hstale] using hfollows

theorem keeps_handle {Q : Except Fault Nat → List Dealing → State → Prop}
    (hok : ∀ id s', HandleFound s n id s' → Q (.ok id) ds s')
    (herror : ∀ e, Unhandled n e s → Q (.error e) ds s) :
    (handle n).Keeps (calls rule) Q ds s := by
  rw [handle]
  simp only [keeps_bind, keeps_workspace, keeps_look, next_ok]
  cases hconfigured : (s.workspace n).statusFile s.world with
  | error e => exact (next_error _ _ _).2 (herror e (.inl hconfigured))
  | ok configured =>
    simp only [next_ok, keeps_bind, keeps_state]
    -- a handle that does not fit is treated as if there were none
    have hnew : ¬ Stale s n → Next (calls rule) (fun h => do
        Op.modify fun s' => { s' with
          handles := s'.handles ++ [h]
          handleOf := s'.handleOf.insert (s.workspace n).key s.handles.length }
        pure s.handles.length) Q
        (Handle.ofRoot s.world s.daemons.identity (s.workspace n).root configured) ds s := by
      intro hstale
      cases hh : Handle.ofRoot s.world s.daemons.identity (s.workspace n).root configured with
      | error e => exact (next_error _ _ _).2 (herror e (.inr (resolve_of_ofRoot hh)))
      | ok h =>
        simp only [next_ok, keeps_bind, keeps_modify, keeps_pure, calls_write]
        exact ⟨rfl, hok _ _ (handleFound_new hconfigured hstale hh)⟩
    cases hid : s.handleOf.get? (s.workspace n).key with
    | none =>
      rw [keeps_bind, keeps_look]
      exact hnew (not_stale_of_none hid)
    | some id =>
      cases configured with
      | none =>
        simp only [if_true, keeps_pure]
        exact hok id s (handleFound_same hconfigured hid (by simp))
      | some path =>
        by_cases hpath : (s.handle id).statusFile = path
        · simpa only [hpath, decide_true, if_true, keeps_pure] using
            hok id s (handleFound_same hconfigured hid (by simpa using hpath))
        · simp only [hpath, decide_false, Bool.false_eq_true, if_false, keeps_bind, keeps_look]
          exact hnew (not_stale_of_configured hconfigured)

/-- A handle that has just been looked up is found again. -/
theorem keeps_handle_again {Q : Except Fault Nat → List Dealing → State → Prop} {s' : State}
    {id : Nat} (h : HandleFound s n id s') :
    (handle n).Keeps (calls rule) Q ds s' ↔ Q (.ok id) ds s' := by
  obtain ⟨configured, hconfigured, hfollows⟩ := h.status
  have hws := State.workspace_of_core h.core n
  have hentry : s'.handleOf.get? (s'.workspace n).key = some id := by
    rw [hws]
    exact h.entry
  rw [handle]
  simp only [keeps_bind, keeps_workspace, keeps_look, next_ok, keeps_state, hws, h.world,
    hconfigured]
  rw [hws] at hentry
  simp only [hentry]
  cases configured with
  | none => simp only [if_true, keeps_pure]
  | some path =>
    have hpath : (s'.handle id).statusFile = path :=
      hfollows.2 (not_stale_of_configured hconfigured)
    simp only [hpath, decide_true, if_true, keeps_pure]

/-- The command line of a daemon command was worked out with the handle on file. -/
theorem keeps_argv {Q : Except Fault (List Json) → List Dealing → State → Prop}
    {command : String} {args : List Json}
    (hok : ∀ id s' argv, HandleFound s n id s' →
      (s.workspace n).daemonArgv s.world (s'.handle id) command args = .ok argv →
      Q (.ok argv) ds s')
    (herror : ∀ e s', Unworkable n e s' → Q (.error e) ds s') :
    (argv n command args).Keeps (calls rule) Q ds s := by
  rw [argv]
  simp only [keeps_bind]
  refine keeps_handle (fun id s' hfound => ?_) fun e he =>
    (next_error _ _ _).2 (herror e s (.handle he))
  simp only [next_ok, keeps_bind, keeps_state, keeps_look, State.workspace_of_core hfound.core,
    hfound.world]
  cases hargv : (s.workspace n).daemonArgv s.world (s'.handle id) command args with
  | error e =>
    refine herror e s' (.program ?_)
    rw [State.workspace_of_core hfound.core, hfound.world]
    exact command_of_daemonArgv hargv
  | ok argv => exact hok id s' argv hfound hargv

/-! ## Faults without a process -/

theorem isStuck_of_not_failure {e : Fault} (h : isFailure e = false) : isStuck e = false := by
  unfold isStuck
  unfold isFailure at h
  generalize e.cls = c at h ⊢
  revert h
  cases c <;> decide

theorem isFailure_misuse (m : Misuse) : isFailure (.misuse m) = false := by cases m <;> rfl

theorem isFailure_files (refusal : Files.Refusal) (path : String) :
    isFailure (.files refusal path) = false := by
  show (Fault.refusalClass refusal).isA .checker = false
  cases refusal <;> decide

theorem isFailure_of_granted {α : Type} {path : String} {r : Except Files.Refusal α} {e : Fault}
    (h : World.granted path r = .error e) : isFailure e = false := by
  cases r with
  | ok a => exact absurd h (by simp [World.granted])
  | error refusal =>
    cases h
    exact isFailure_files refusal path

theorem isFailure_of_resolve {w : World} {path : Path} {e : Fault}
    (h : w.resolve path = .error e) : isFailure e = false := by
  unfold World.resolve at h
  split at h
  · exact absurd h (by simp)
  · cases h
    rfl
  · cases h
    exact isFailure_files .nullByte path.text

theorem isFailure_of_path? {ws : Workspace} {w : World} {setting : Setting} {e : Fault}
    (h : ws.path? w setting = .error e) : isFailure e = false := by
  rw [Workspace.path?] at h
  split at h
  · cases hv : ws.settings.value setting with
    | str s => simp [hv, World.expandSetting, Except.map] at h
    | _ =>
      simp only [hv, World.expandSetting, Except.map, Except.error.injEq] at h
      exact h ▸ isFailure_misuse _
  · exact absurd h (by simp)

theorem isFailure_of_cwd {ws : Workspace} {w : World} {e : Fault} (h : ws.cwd w = .error e) :
    isFailure e = false := by
  cases hpath : ws.path? w .cwd with
  | error e' =>
    simp only [Workspace.cwd, hpath, bind, Except.bind, Except.error.injEq] at h
    exact h ▸ isFailure_of_path? hpath
  | ok path => simp [Workspace.cwd, hpath, bind, Except.bind, pure, Except.pure] at h

theorem isFailure_of_envFileText {w : World} {path : Path} {e : Fault}
    (h : Workspace.envFileText w path = .error e) : isFailure e = false := by
  simp only [Workspace.envFileText, World.readText, World.readBytes, bind, Except.bind] at h
  split at h
  · exact absurd h (by simp)
  · split at h
    · next hread =>
      cases h
      exact isFailure_of_granted hread
    · split at h
      · exact absurd h (by simp)
      · cases h
        rfl

theorem isFailure_of_envItems {ws : Workspace} {e : Fault} (h : ws.envItems = .error e) :
    isFailure e = false := by
  rw [Workspace.envItems] at h
  split at h
  · exact absurd h (by simp)
  · cases h
    exact isFailure_misuse _

/-- The fault of an action is the fault of one of its parts. -/
theorem exec_bind {α β : Type} (a : Act α) (f : α → Act β) (w : World) :
    (a >>= f).exec w = match a.exec w with
      | (.ok v, w) => (f v).exec w
      | (.error e, w) => (.error e, w) := by
  simp only [Act.exec, ExceptT.run_bind, StateT.run_bind]
  rcases (a.run.run w) with ⟨r, w'⟩
  cases r <;> rfl

theorem exec_look {α : Type} (f : World → Except Fault α) (w : World) :
    (Act.look f).exec w = (f w, w) := by
  have hget : (get : Act World).exec w = (.ok w, w) := rfl
  rw [Act.look, exec_bind, hget]
  dsimp only
  cases f w <;> rfl

/-- What is read from the environment file of a workspace. -/
theorem exec_fileItems (ws : Workspace) (w : World) : ws.fileItems.exec w =
    match ws.path? w .envFile with
    | .error e => (.error e, w)
    | .ok none => (.ok [], w)
    | .ok (some path) => match w.pathExists path with
      | .error e => (.error e, w)
      | .ok false =>
        (.ok [], w.record ⟨.warning, .settings, "Env file not found: " ++ path.text⟩)
      | .ok true => ((Workspace.envFileText w path).map (Workspace.envFileItems w), w) := by
  have hget : (get : Act World).exec w = (.ok w, w) := rfl
  rw [Workspace.fileItems, exec_bind, exec_look]
  cases ws.path? w .envFile with
  | error e => rfl
  | ok path =>
    cases path with
    | none => rfl
    | some path =>
      simp only [exec_bind, hget, exec_look]
      rcases w.pathExists path with e | there
      · rfl
      · cases there with
        | false => rfl
        | true =>
          simp only [if_true, exec_bind, exec_look]
          cases Workspace.envFileText w path <;> rfl

/-- The environment of a workspace is laid over that of the program. -/
theorem exec_environment (ws : Workspace) (w : World) : ws.environment.exec w =
    match ws.fileItems.exec w with
    | (.error e, w') => (.error e, w')
    | (.ok fromFile, w') =>
      (ws.envItems.map fun items => (w.environment.insertAll fromFile).insertAll items, w') := by
  have hget : (get : Act World).exec w = (.ok w, w) := rfl
  rw [Workspace.environment, exec_bind, hget]
  simp only [exec_bind]
  rcases ws.fileItems.exec w with ⟨e | fromFile, w'⟩
  · rfl
  · simp only [exec_look]
    cases ws.envItems <;> rfl

theorem isFailure_of_fileItems {ws : Workspace} {w : World} {e : Fault}
    (h : (ws.fileItems.exec w).1 = .error e) : isFailure e = false := by
  rw [exec_fileItems] at h
  split at h
  · next hpath =>
    cases h
    exact isFailure_of_path? hpath
  · exact absurd h (by simp)
  · next path _ =>
    split at h
    · next hexists =>
      cases h
      exact isFailure_of_granted hexists
    · exact absurd h (by simp)
    · cases htext : Workspace.envFileText w path with
      | ok text => exact absurd h (by simp [htext, Except.map])
      | error e' =>
        rw [htext] at h
        cases h
        exact isFailure_of_envFileText htext

theorem isFailure_of_environment {ws : Workspace} {w : World} {e : Fault}
    (h : (ws.environment.exec w).1 = .error e) : isFailure e = false := by
  rw [exec_environment] at h
  split at h
  · next hitems =>
    cases h
    exact isFailure_of_fileItems (congrArg Prod.fst hitems)
  · cases hitems : ws.envItems with
    | ok items => exact absurd h (by simp [hitems, Except.map])
    | error e' =>
      rw [hitems] at h
      cases h
      exact isFailure_of_envItems hitems

theorem exists_of_mapM_error {α β : Type} {f : α → Except Fault β} {l : List α} {e : Fault}
    (h : l.mapM f = .error e) : ∃ a ∈ l, f a = .error e := by
  induction l with
  | nil => exact absurd h (by simp [pure, Except.pure])
  | cons a rest ih =>
    rw [List.mapM_cons] at h
    cases ha : f a with
    | error e' =>
      rw [ha] at h
      obtain rfl : e' = e := by simpa [bind, Except.bind] using h
      exact ⟨a, List.mem_cons_self .., ha⟩
    | ok b =>
      cases hrest : rest.mapM f with
      | error e' =>
        rw [ha, hrest] at h
        obtain rfl : e' = e := by simpa [bind, Except.bind] using h
        obtain ⟨a', ha', hfa'⟩ := ih hrest
        exact ⟨a', List.mem_cons_of_mem _ ha', hfa'⟩
      | ok bs =>
        rw [ha, hrest] at h
        exact absurd h (by simp [bind, Except.bind, pure, Except.pure])

theorem isFailure_of_words {argv : List Json} {e : Fault} (h : words argv = .error e) :
    isFailure e = false := by
  obtain ⟨⟨v, i⟩, -, hv⟩ := exists_of_mapM_error h
  cases v with
  | str s => exact absurd hv (by simp)
  | _ =>
    cases hv
    exact isFailure_misuse _

/-- The command line of a command without arguments consists of texts. -/
theorem words_ne_error_of_daemonArgv {ws : Workspace} {w : World} {h : Handle} {command : String}
    {argv : List Json} {e : Fault} (hargv : ws.daemonArgv w h command [] = .ok argv) :
    words argv ≠ .error e := by
  intro hwords
  obtain ⟨⟨v, i⟩, hmem, hv⟩ := exists_of_mapM_error hwords
  have hmem := List.fst_mem_of_mem_zipIdx hmem
  simp only [Workspace.daemonArgv, bind, Except.bind] at hargv
  split at hargv
  · exact absurd hargv (by simp)
  · cases hargv
    rw [List.isEmpty_nil, if_pos rfl, List.append_nil] at hmem
    obtain ⟨text, -, rfl⟩ := List.mem_map.1 hmem
    exact absurd hv (by simp)

/-! ## Command lines -/

theorem front_of_command {ws : Workspace} {w : World} {p : Program} {front : List String}
    (h : ws.command w p = .ok front) :
    (∃ executable, front = [executable]) ∨
      ∃ interpreter, front = [interpreter, "-m", p.moduleName] := by
  simp only [Workspace.command, bind, Except.bind] at h
  split at h
  · split at h
    · exact absurd h (by simp)
    · split at h
      · exact absurd h (by simp [throw, throwThe, MonadExceptOf.throw])
      · split at h
        · exact absurd h (by simp)
        · split at h
          · cases h
            exact .inr ⟨_, rfl⟩
          · exact absurd h (by simp [Workspace.notFound])
  · split at h
    · exact absurd h (by simp)
    · cases h
      exact .inl ⟨_, rfl⟩

/-- Texts at the front of a command line are its first words. -/
theorem words_append {line : List String} {argv : List Json} {all : List String}
    (h : words (line.map .str ++ argv) = .ok all) : line <+: all := by
  have hprefix : ∀ (line : List String) (f : Json × Nat → Except Fault String),
      (∀ s m, f (.str s, m) = .ok s) → ∀ m all,
        ((line.map Json.str ++ argv).zipIdx m).mapM f = .ok all → line <+: all := by
    intro line f hf
    induction line with
    | nil => exact fun _ _ _ => List.nil_prefix
    | cons x line ih =>
      intro m all h
      rw [List.map_cons, List.cons_append, List.zipIdx_cons, List.mapM_cons, hf] at h
      cases hrest : ((line.map Json.str ++ argv).zipIdx (m + 1)).mapM f with
      | error e =>
        rw [hrest] at h
        exact absurd h (by simp [bind, Except.bind])
      | ok rest =>
        rw [hrest] at h
        cases h
        exact List.cons_prefix_cons.2 ⟨rfl, ih (m + 1) rest hrest⟩
  exact hprefix line _ (fun _ _ => rfl) 0 all h

/-- A command line of a daemon command gives that command. -/
theorem command?_of_daemonArgv {ws : Workspace} {w : World} {h : Handle} {command : String}
    {args argv : List Json} {c : Call} (hargv : ws.daemonArgv w h command args = .ok argv)
    (hwords : words argv = .ok c.argv) : c.command? = some command := by
  simp only [Workspace.daemonArgv, bind, Except.bind] at hargv
  cases hfront : ws.command w .daemon with
  | error e =>
    rw [hfront] at hargv
    exact absurd hargv (by simp)
  | ok front =>
    rw [hfront] at hargv
    cases hargv
    obtain ⟨rest, hline⟩ := words_append hwords
    rw [Call.command?, ← hline]
    rcases front_of_command hfront with ⟨executable, rfl⟩ | ⟨interpreter, rfl⟩
    · rfl
    · simp

/-! ## One call -/

/-- The call that is made in a state for a command line, and the state in which the process is
started: the directory and the environment come from the workspace as it is then. -/
structure Started (s : State) (n : Nat) (argv : List Json) (s' : State) (c : Call) : Prop where
  words : words argv = .ok c.argv
  cwd : ∃ cwd, (s.workspace n).cwd s.world = .ok cwd ∧ c.cwd = some cwd
  environment : ∃ environment, ((s.workspace n).environment.exec s.world).1 = .ok environment ∧
    c.environment = some environment
  state : ∃ r, s' =
    ({ s with world := ((s.workspace n).environment.exec s.world).2 } : State).record r

theorem Started.core {argv : List Json} {s' : State} {c : Call} (h : Started s n argv s' c) :
    s'.core = s.core := by
  obtain ⟨r, rfl⟩ := h.state
  rfl

/-- How the last process came back. -/
def lastAnswer? (ds : List Dealing) : Option (Except Fault Ended) := ds.head?.map Dealing.answer

/-- A process could not be started, and the fault is none of the system's. -/
def Raised (e : Fault) (answer : Option (Except Fault Ended)) : Prop :=
  answer = some (.error e) ∧ e.cls.isA .os = false

/-- The checker has been called: no process was started, or one was and has come back. -/
theorem keeps_startChecker {Q : Except Fault Ended → List Dealing → State → Prop} {c : Call}
    (hrule : rule ds s c)
    (hok : ∀ ended s', Q (.ok ended) (⟨c, s, .ok ended⟩ :: ds) s')
    (herror : ∀ e e' s', isFailure e' = true ∨ Raised e' (some (.error e)) →
      Q (.error e') (⟨c, s, .error e⟩ :: ds) s') :
    (startChecker c).Keeps (calls rule) Q ds s := by
  rw [startChecker]
  simp only [keeps_bind, keeps_attempt, keeps_spawn, calls_spawn, calls_answered]
  refine ⟨hrule, fun e s₁ s₂ _ _ => ?_⟩
  cases e with
  | ok ended =>
    simp only [next_ok, keeps_pure]
    exact hok ended s₂
  | error e =>
    simp only [next_ok]
    split
    · simp only [keeps_bind, keeps_log, calls_write, State.core_record, true_and, next_ok,
        keeps_throw]
      exact herror e _ _ (.inl rfl)
    · next hos =>
      simp only [keeps_throw]
      exact herror e e s₂ (.inr ⟨rfl, by simpa using hos⟩)

theorem isFailure_failureOf (outcome : Outcome) (ended : Ended) :
    isFailure (.failure (failureOf outcome ended) none) = true := by
  cases outcome <;> rfl

/-- A process was of no use, and what the call of the checker ends with: it could not be started,
or came back without having done its work. -/
structure Botched (command : String) (d : Dealing) (e : Fault) : Prop where
  reason : isFailure e = true ∨ Raised e (some d.answer)
  outcome : ∀ ended, d.answer = .ok ended →
    (RunResult.judge command ended).outcome.isSuccess = false

/-- A call of the checker starts at most one process, and its result is what the process says. If
no process was started, the fault is no failure of the checker. -/
theorem keeps_invoke {Q : Except Fault RunResult → List Dealing → State → Prop}
    {argv : List Json} {command : String}
    (hrule : ∀ s' c, Started s n argv s' c → rule ds s' c)
    (hok : ∀ d ended s', Started s n argv d.state d.call → d.answer = .ok ended →
      Q (.ok (.judge command ended)) (d :: ds) s')
    (hnone : ∀ e s', isFailure e = false → Unworkable n e s' ∨ words argv = .error e →
      Q (.error e) ds s')
    (herror : ∀ e d s', Started s n argv d.state d.call → Botched command d e →
      Q (.error e) (d :: ds) s') :
    (invoke n argv command).Keeps (calls rule) Q ds s := by
  rw [invoke]
  simp only [keeps_bind, keeps_workspace, keeps_look, next_ok]
  cases hcwd : (s.workspace n).cwd s.world with
  | error e =>
    exact (next_error _ _ _).2 (hnone e s (isFailure_of_cwd hcwd) (.inl (.cwd hcwd)))
  | ok cwd =>
    simp only [next_ok, keeps_bind, keeps_act, calls_write, State.core_withWorld, true_and]
    cases henv : ((s.workspace n).environment.exec s.world).1 with
    | error e =>
      exact (next_error _ _ _).2 (hnone e _ (isFailure_of_environment henv)
        (.inl (.environment henv)))
    | ok environment =>
      simp only [next_ok, keeps_bind, keeps_look]
      cases hwords : words argv with
      | error e =>
        exact (next_error _ _ _).2 (hnone e _ (isFailure_of_words hwords) (.inr hwords))
      | ok line =>
        simp only [next_ok, keeps_bind, keeps_log, calls_write, State.core_record,
          State.core_withWorld, true_and]
        have hstarted : ∀ r, Started s n argv
            (({ s with world := ((s.workspace n).environment.exec s.world).2 } : State).record r)
            ⟨line, some cwd, some environment⟩ :=
          fun r => ⟨hwords, ⟨cwd, hcwd, rfl⟩, ⟨environment, henv, rfl⟩, r, rfl⟩
        refine keeps_startChecker (hrule _ _ (hstarted _)) (fun ended s' => ?_)
          fun e e' s' he' => ?_
        · have hjudge := fun r s' => hok ⟨_, _, .ok ended⟩ ended s' (hstarted r) rfl
          simp only [RunResult.judge] at hjudge
          simp only [next_ok]
          split
          · next hnothing =>
            simp only [hnothing, if_true] at hjudge
            simp only [hnothing, keeps_bind, keeps_log, calls_write, State.core_record, true_and,
              next_ok, keeps_pure]
            exact hjudge _ _
          · next hsome =>
            simp only [hsome, if_false] at hjudge
            split
            · split <;>
              · simp only [keeps_bind, keeps_log, calls_write, State.core_record, true_and, next_ok,
                  keeps_pure]
                exact hjudge _ _
            · next hfailed =>
              simp only [keeps_bind, keeps_log, calls_write, State.core_record, true_and, next_ok,
                keeps_throw]
              refine herror _ ⟨_, _, .ok ended⟩ _ (hstarted _) ⟨.inl (isFailure_failureOf _ _), ?_⟩
              rintro _ ⟨⟩
              simpa [RunResult.judge] using hfailed
        · refine (next_error _ _ _).2 (herror e' ⟨_, _, .error e⟩ s' (hstarted _) ⟨he', ?_⟩)
          exact fun ended hd => absurd hd (by simp)

/-- The state in which a command is given: commands that leave a daemon running say so. -/
def announced (s : State) (id : Nat) (command : String) : State :=
  if Workspace.startsDaemon command then s.setHandle id fun h => { h with started := true } else s

theorem core_announced (s : State) (id : Nat) (command : String) :
    (announced s id command).core = s.core := by
  rw [announced]
  split <;> rfl

theorem isFailure_of_isA_executableNotFound {e : Fault}
    (h : e.cls.isA .executableNotFound = true) : isFailure e = true := by
  unfold isFailure
  generalize e.cls = c at h ⊢
  revert h
  cases c <;> decide

theorem keeps_attemptCommand {Q : Except Fault RunResult → List Dealing → State → Prop}
    {id : Nat} {argv : List Json} {command : String}
    (hrule : ∀ s' c, Started (announced s id command) n argv s' c → rule ds s' c)
    (hok : ∀ d ended s', Started (announced s id command) n argv d.state d.call →
      d.answer = .ok ended → Q (.ok (.judge command ended)) (d :: ds) s')
    (hnone : ∀ e s', isFailure e = false → Unworkable n e s' ∨ words argv = .error e →
      Q (.error e) ds s')
    (herror : ∀ e d s', Started (announced s id command) n argv d.state d.call →
      Botched command d e → Q (.error e) (d :: ds) s') :
    (Daemon.attempt n id argv command).Keeps (calls rule) Q ds s := by
  have hend : ∀ d ended s', Started (announced s id command) n argv d.state d.call →
      d.answer = .ok ended →
      (pure (.judge command ended) : Op RunResult).Keeps (calls rule) Q (d :: ds) s' := by
    intro d ended s' hstarted hd
    rw [keeps_pure]
    exact hok d ended s' hstarted hd
  -- the state is changed once more only if the fault is a failure of the checker
  have hfail : ∀ e ds' s', Q (.error e) ds' s' →
      (isFailure e = true → ∀ s'', Q (.error e) ds' s'') →
      (if e.cls.isA .executableNotFound = true then
        (do setStarted id (s.started id); throw e)
      else throw e : Op RunResult).Keeps (calls rule) Q ds' s' := by
    intro e ds' s' hQ hfailure
    split
    · next hmissing =>
      simp only [setStarted, keeps_bind, keeps_modify, calls_write, State.core_setHandle,
        true_and, next_ok, keeps_throw]
      exact hfailure (isFailure_of_isA_executableNotFound hmissing) _
    · rw [keeps_throw]
      exact hQ
  have hnone' := fun e s' (hfailure : isFailure e = false) hreason =>
    hfail e ds s' (hnone e s' hfailure hreason) fun h => absurd (hfailure.symm.trans h) (by simp)
  have herror' := fun e d s' hstarted (hd : Botched command d e) =>
    hfail e (d :: ds) s' (herror e d s' hstarted hd) fun h s'' =>
      herror e d s'' hstarted ⟨.inl h, hd.outcome⟩
  rw [Daemon.attempt]
  rw [announced] at hrule hend herror'
  simp only [keeps_bind, keeps_state, next_ok]
  by_cases hstarts : Workspace.startsDaemon command = true
  · simp only [hstarts, if_true, keeps_bind, setStarted, keeps_modify, calls_write,
      State.core_setHandle, true_and, next_ok, Op.keeps_attempt] at hrule hend herror' ⊢
    exact keeps_invoke hrule hend hnone' herror'
  · simp only [hstarts, Bool.false_eq_true, if_false, keeps_bind, next_ok,
      Op.keeps_attempt] at hrule hend herror' ⊢
    exact keeps_invoke hrule hend hnone' herror'

/-! ## Where a call comes from -/

/-- A command line is worked out from the settings of a workspace in a state: it gives a command to
the daemon of the handle on file, without arguments or with those of a check, or it has the checker
check a text. -/
inductive WorkedOut (s : State) (n : Nat) (argv : List Json) : Prop
  | daemon {id : Nat} {s₁ : State} {command : String} {args : List Json}
    (hfound : HandleFound s n id s₁)
    (hargs : args = [] ∨ (s.workspace n).runArgs s.world = .ok args)
    (hargv : (s.workspace n).daemonArgv s.world (s₁.handle id) command args = .ok argv) :
    WorkedOut s n argv
  | direct {front : List String} {text : String} {args : List Json}
    (hfront : (s.workspace n).command s.world .direct = .ok front)
    (hargs : (s.workspace n).checkerArgs s.world = .ok args)
    (hargv : argv = front.map .str ++ (.str "-c" :: .str text :: args)) : WorkedOut s n argv

/-- A process is started with a command line that was worked out from settings in force: those of
now, or those at the start of an earlier process with the same command line. Its directory and its
environment come from the settings of now. -/
def Sourced (n : Nat) (earlier : List (Call × State)) (s : State) (c : Call) : Prop :=
  ∃ s₀ s₁ argv, WorkedOut s₀ n argv ∧ Started s₁ n argv s c ∧
    (s₀.workspace n = s.workspace n ∨
      ∃ x ∈ earlier, x.1.argv = c.argv ∧ s₀.workspace n = x.2.workspace n)

theorem Sourced.mono {earlier earlier' : List (Call × State)} {c : Call}
    (h : Sourced n earlier s c) (hsub : earlier ⊆ earlier') : Sourced n earlier' s c := by
  obtain ⟨s₀, s₁, argv, hargv, hstarted, hsource⟩ := h
  refine ⟨s₀, s₁, argv, hargv, hstarted, hsource.imp_right ?_⟩
  rintro ⟨x, hx, hrest⟩
  exact ⟨x, hsub hx, hrest⟩

/-- The processes of some dealings, with the states in which they were started. -/
def made (ds : List Dealing) : List (Call × State) := ds.map fun d => (d.call, d.state)

/-- The rule that every process comes from settings in force. -/
def sourcedRule (n : Nat) (ds : List Dealing) (s : State) (c : Call) : Prop :=
  Sourced n (made ds) s c

/-- From some dealings on a rule allows every process that comes from settings in force. -/
def Open (n : Nat) (rule : List Dealing → State → Call → Prop) (ds : List Dealing) : Prop :=
  ∀ ds', ds <:+ ds' → ∀ s c, sourcedRule n ds' s c → rule ds' s c

theorem open_sourcedRule (n : Nat) (ds : List Dealing) : Open n (sourcedRule n) ds :=
  fun _ _ _ _ h => h

theorem Open.mono (h : Open n rule ds) (hds : ds <:+ ds') : Open n rule ds' :=
  fun ds'' h' => h ds'' (hds.trans h')

/-- A command line has been tried, with the settings of some state in force. -/
def Tried (s : State) (n : Nat) (argv : List Json) (ds : List Dealing) : Prop :=
  ∃ d ∈ ds, words argv = .ok d.call.argv ∧ d.state.workspace n = s.workspace n

theorem Tried.mono {argv : List Json} (h : Tried s n argv ds) (hds : ds <:+ ds') :
    Tried s n argv ds' := by
  obtain ⟨d, hd, hrest⟩ := h
  exact ⟨d, hds.subset hd, hrest⟩

theorem Tried.ne_nil {argv : List Json} (h : Tried s n argv ds) : ds ≠ [] := by
  obtain ⟨d, hd, -⟩ := h
  exact List.ne_nil_of_mem hd

theorem Started.tried {s₁ : State} {argv : List Json} {d : Dealing}
    (h : Started s₁ n argv d.state d.call) (hcore : s₁.core = s.core) :
    Tried s n argv (d :: ds) :=
  ⟨d, List.mem_cons_self, h.words, State.workspace_of_core (h.core.trans hcore) n⟩

theorem Started.sourced {s₁ s' : State} {argv : List Json} {c : Call}
    {earlier : List (Call × State)} (h : Started s₁ n argv s' c) (hargv : WorkedOut s n argv)
    (hcore : s₁.core = s.core) : Sourced n earlier s' c :=
  ⟨s, s₁, argv, hargv, h, .inl (State.workspace_of_core (h.core.trans hcore) n).symm⟩

/-- Trying once more takes the command line as it is. -/
theorem Started.sourced_again {s₁ s' : State} {argv : List Json} {c : Call}
    (h : Started s₁ n argv s' c) (hargv : WorkedOut s n argv) (htried : Tried s n argv ds) :
    Sourced n (made ds) s' c := by
  obtain ⟨d, hd, hwords, hws⟩ := htried
  refine ⟨s, s₁, argv, hargv, h,
    .inr ⟨(d.call, d.state), List.mem_map.2 ⟨d, hd, rfl⟩, ?_, hws.symm⟩⟩
  exact Except.ok.inj (hwords.symm.trans h.words)

/-- A process was no run of the checker, or one that has not done its work. -/
def Vain (d : Dealing) : Prop :=
  d.call.command? = some "run" → ∀ ended, d.answer = .ok ended →
    (RunResult.judge "run" ended).outcome.isSuccess = false

theorem vain_of_ne {d : Dealing} {command : String} (h : d.call.command? = some command)
    (hne : command ≠ "run") : Vain d :=
  fun hrun => absurd (Option.some.inj (h.symm.trans hrun)) hne

theorem Botched.vain {command : String} {d : Dealing} {e : Fault} (h : Botched command d e)
    (hcommand : d.call.command? = some command) : Vain d := by
  intro hrun
  obtain rfl : command = "run" := Option.some.inj (hcommand.symm.trans hrun)
  exact h.outcome

/-- Dealings that were added to others, all of them in vain. -/
def VainFrom (ds ds' : List Dealing) : Prop :=
  ∃ new, ds' = new ++ ds ∧ ∀ d ∈ new, Vain d

theorem VainFrom.refl (ds : List Dealing) : VainFrom ds ds := ⟨[], rfl, by simp⟩

theorem VainFrom.suffix (h : VainFrom ds ds') : ds <:+ ds' := by
  obtain ⟨new, rfl, -⟩ := h
  exact List.suffix_append new ds

theorem VainFrom.trans {ds'' : List Dealing} (h : VainFrom ds ds') (h' : VainFrom ds' ds'') :
    VainFrom ds ds'' := by
  obtain ⟨new, rfl, hnew⟩ := h
  obtain ⟨new', rfl, hnew'⟩ := h'
  refine ⟨new' ++ new, by simp, fun d hd => ?_⟩
  exact (List.mem_append.1 hd).elim (hnew' d) (hnew d)

theorem VainFrom.forall (h : VainFrom [] ds) : ∀ d ∈ ds, Vain d := by
  obtain ⟨new, rfl, hnew⟩ := h
  simpa using hnew

theorem VainFrom.cons {d : Dealing} (h : VainFrom ds ds') (hd : Vain d) : VainFrom ds (d :: ds') :=
  h.trans ⟨[d], rfl, fun d' hd' => by rwa [List.mem_singleton.1 hd']⟩

/-! ## Repeated attempts -/

/-- Attempts that keep to a discipline from wherever an earlier one has left off. -/
theorem keeps_attemptsFrom {γ α : Type} {D : Discipline γ} {P : γ → State → Prop}
    {Q : Except Fault α → γ → State → Prop} {retries : Fault → Bool}
    {attempt : Nat → Prog (Except Fault α)} {between : Nat → Fault → Prog (Except Fault Unit)}
    (hattempt : ∀ k g s, P g s → (attempt k).Keeps D
      (fun r g s => Q r g s ∧ ∀ e, r = .error e → retries e = true → P g s) g s)
    (hbetween : ∀ k e g s, P g s →
      (between k e).Keeps D (fun r g s => P g s ∧ ∀ e, r = .error e → Q (.error e) g s) g s)
    (left number : Nat) {g : γ} {s : State}
    (hfirst : (attempt number).Keeps D
      (fun r g s => Q r g s ∧ ∀ e, r = .error e → retries e = true → P g s) g s) :
    (Retry.attemptsFrom retries attempt between left number).Keeps D Q g s := by
  induction left generalizing number g s with
  | zero => exact hfirst.mono fun r g s h => h.1
  | succ left ih =>
    rw [Retry.attemptsFrom]
    simp only [Prog.keeps_seq]
    refine hfirst.mono fun r g s h => ?_
    obtain ⟨hQ, hP⟩ := h
    cases r with
    | ok a => exact hQ
    | error e =>
      simp only
      split
      · next hretries =>
        simp only [Prog.keeps_seq]
        refine (hbetween number e g s (hP e rfl hretries)).mono fun r g s h => ?_
        cases r with
        | ok u => exact ih (number + 1) (hattempt (number + 1) g s h.1)
        | error e => exact h.2 e rfl
      · exact hQ

/-- What is done between two attempts as one operation. -/
theorem between_eq_run (recover : Option (Fault → Op Unit)) (bound delay : Int) (number : Nat)
    (e : Fault) : between recover bound delay number e = (do
      log .info .retry (Retry.note number bound e)
      recover.elim (pure ()) fun f => f e
      if delay ≠ 0 then Op.sleep delay : Op Unit).run := by
  rw [between, Retry.pause]
  refine congrArg Prog.read (funext fun s => congrArg (Prog.write _) ?_)
  cases recover with
  | none =>
    simp only [Option.map_none, Option.elim_none]
    show (if delay ≠ 0 then _ else _) = ExceptT.run (if delay ≠ 0 then _ else _)
    split <;> rfl
  | some f =>
    simp only [Option.map_some, Option.elim_some]
    show (f e).run.bind _ = (f e).run.bind _
    refine congrArg (f e).run.bind (funext fun r => ?_)
    cases r with
    | error e => rfl
    | ok u =>
      show (if delay ≠ 0 then _ else _) = ExceptT.run (if delay ≠ 0 then _ else _)
      split <;> rfl

/-- What is done between two attempts, with a recovery or without one. Without one nothing can go
wrong. -/
theorem keeps_between {P : List Dealing → Prop} {recover : Option (Fault → Op Unit)}
    (hmade : ∀ ds, P ds → ds ≠ [])
    (hrecover : ∀ f, recover = some f → ∀ e ds s, P ds →
      (f e).Keeps (calls rule) (fun _ ds _ => P ds) ds s)
    (bound delay : Int) (number : Nat) (e : Fault) (hP : P ds) :
    (between recover bound delay number e).Keeps (calls rule)
      (fun r ds _ => P ds ∧ (recover = none → r = .ok ())) ds s := by
  have hsleep : ∀ ds s, P ds → (do
      if delay ≠ 0 then (do let _ ← (Op.sleep delay).run : Prog Unit)
      return .ok () : Prog (Except Fault Unit)).Keeps (calls rule)
        (fun r ds _ => P ds ∧ (recover = none → r = .ok ())) ds s := by
    intro ds s hP
    split
    · simp only [Prog.keeps_seq, ← keeps_iff_run, keeps_sleep, calls_write, State.core_slept,
        calls_sleep]
      exact ⟨trivial, hmade ds hP, fun _ _ => ⟨hP, fun _ => rfl⟩⟩
    · exact ⟨hP, fun _ => rfl⟩
  rw [between, Retry.pause]
  simp only [Prog.keeps_seq, ← keeps_iff_run, keeps_log, calls_write, State.core_record, true_and,
    Prog.keeps_return]
  cases recover with
  | none => exact hsleep ds _ hP
  | some f =>
    simp only [Option.map_some, Prog.keeps_seq, ← keeps_iff_run]
    refine (hrecover f rfl e ds _ hP).mono fun r ds s hP => ?_
    cases r with
    | error e => exact ⟨hP, fun hnone => absurd hnone (by simp)⟩
    | ok u => exact hsleep ds s hP

/-! ## Commands -/

/-- The first process of a command that is given in a state: its command line comes from the
settings of that state and the handle on file, whose directories have been made. -/
structure Given (s : State) (n : Nat) (command : String) (args : List Json) (s' : State)
    (c : Call) : Prop where
  found : ∃ id s₁ argv, HandleFound s n id s₁ ∧
    (s.workspace n).daemonArgv s.world (s₁.handle id) command args = .ok argv ∧
    ((s₁.handle id).ensureDirectories.exec s.world).1 = .ok () ∧
    Started (announced { s₁ with world := ((s₁.handle id).ensureDirectories.exec s.world).2 } id
      command) n argv s' c

theorem Given.core {command : String} {args : List Json} {s' : State} {c : Call}
    (h : Given s n command args s' c) : s'.core = s.core := by
  obtain ⟨id, s₁, argv, hfound, -, -, hstarted⟩ := h.found
  rw [hstarted.core, core_announced, State.core_withWorld, hfound.core]

/-- Something was to be done with the files of the handle on file, and was refused. -/
def Refused {α : Type} (f : Handle → Act α) (n : Nat) (e : Fault) (s : State) : Prop :=
  ∃ s₀ : State, ∃ id, s₀.handleOf.get? (s₀.key n) = some id ∧
    ((f (s₀.handle id)).exec s₀.world).1 = .error e ∧
    s = { s₀ with world := ((f (s₀.handle id)).exec s₀.world).2 }

theorem HandleFound.refused {α : Type} {f : Handle → Act α} {e : Fault} {id : Nat} {s' : State}
    (h : HandleFound s n id s') (hf : ((f (s'.handle id)).exec s'.world).1 = .error e) :
    Refused f n e { s' with world := ((f (s'.handle id)).exec s'.world).2 } :=
  ⟨s', id, by rw [State.key_of_core h.core]; exact h.entry, hf, rfl⟩

/-- Before a command is attempted its command line is worked out and the directories of the
handle are made. -/
theorem keeps_give_of_attempts {Q : Except Fault RunResult → List Dealing → State → Prop}
    {command : String} {args : List Json} {bound : Int} {recover : Option (Fault → Op Unit)}
    (hattempts : ∀ id s₁ argv, HandleFound s n id s₁ →
      (s.workspace n).daemonArgv s.world (s₁.handle id) command args = .ok argv →
      ((s₁.handle id).ensureDirectories.exec s.world).1 = .ok () → ∀ delay,
      Prog.Keeps (calls rule) Q (Retry.bounded bound isStuck
        (fun _ => (Daemon.attempt n id argv command).run) (between recover bound delay)) ds
        { s₁ with world := ((s₁.handle id).ensureDirectories.exec s.world).2 })
    (herror : ∀ e s', Unworkable n e s' ∨ Refused Handle.ensureDirectories n e s' →
      Q (.error e) ds s') :
    (give n command args bound recover).Keeps (calls rule) Q ds s := by
  rw [give]
  simp only [keeps_bind]
  refine keeps_argv (fun id s₁ argv hfound hargv => ?_) fun e s' he =>
    (next_error _ _ _).2 (herror e s' (.inl he))
  simp only [next_ok, keeps_bind, keeps_handle_again hfound, withHandle, keeps_state, keeps_act,
    calls_write, State.core_withWorld, true_and]
  cases hmade : ((s₁.handle id).ensureDirectories.exec s₁.world).1 with
  | error e => exact (next_error _ _ _).2 (herror e _ (.inr (hfound.refused hmade)))
  | ok u =>
    simp only [next_ok, keeps_bind, keeps_state]
    rw [keeps_iff_run, hfound.world]
    exact hattempts id s₁ argv hfound hargv (hfound.world ▸ hmade) _

theorem Given.sourced {command : String} {args : List Json} {s' : State} {c : Call}
    {earlier : List (Call × State)} (h : Given s n command args s' c)
    (hargs : args = [] ∨ (s.workspace n).runArgs s.world = .ok args) : Sourced n earlier s' c := by
  obtain ⟨id, s₁, argv, hfound, hargv, -, hstarted⟩ := h.found
  refine hstarted.sourced (.daemon hfound hargs hargv) ?_
  rw [core_announced, State.core_withWorld, hfound.core]

/-- A command keeps to a rule that allows its first process and, after that, whatever comes from
settings in force, if the recovery between attempts runs no checker. It is tried again only as long
as this was in vain. -/
theorem keeps_give {Q : Except Fault RunResult → List Dealing → State → Prop} {command : String}
    {args : List Json} {bound : Int} {recover : Option (Fault → Op Unit)}
    (hargs : args = [] ∨ (s.workspace n).runArgs s.world = .ok args)
    (hrule : ∀ s' c, Given s n command args s' c → rule ds s' c)
    (hopen : ∀ d, Open n rule (d :: ds))
    (hrecover : ∀ f, recover = some f → ∀ e ds' s', Open n rule ds' →
      (f e).Keeps (calls rule) (fun _ ds'' _ => VainFrom ds' ds'') ds' s')
    (hok : ∀ d ended ds' s', d.answer = .ok ended → VainFrom ds ds' →
      Q (.ok (.judge command ended)) (d :: ds') s')
    (herror : ∀ e ds' s', VainFrom ds ds' → Q (.error e) ds' s') :
    (give n command args bound recover).Keeps (calls rule) Q ds s := by
  have hrefl := VainFrom.refl ds
  refine keeps_give_of_attempts (fun id s₁ argv hfound hargv hmade delay => ?_) fun e s' _ =>
    herror e ds s' hrefl
  have hworked : WorkedOut s n argv := .daemon hfound hargs hargv
  rw [Retry.bounded]
  split
  · exact herror _ ds _ hrefl
  · -- once the command line has been tried the rule is open, and it is tried again as it is
    refine keeps_attemptsFrom (P := fun ds' _ => Open n rule ds' ∧ VainFrom ds ds' ∧
      Tried s n argv ds') ?_ ?_ _ _ ?_
    · intro k ds' s' hP
      obtain ⟨hfree, hvain, htried⟩ := hP
      rw [← keeps_iff_run]
      refine keeps_attemptCommand (fun s'' c hstarted => ?_)
        (fun d ended s'' _ hd => ⟨hok d ended ds' s'' hd hvain, fun e he => absurd he (by simp)⟩)
        (fun e s'' _ _ => ⟨herror e ds' s'' hvain, fun _ _ _ => ⟨hfree, hvain, htried⟩⟩)
        fun e d s'' hstarted hbotched => ?_
      · exact hfree ds' (List.suffix_refl ds') s'' c (hstarted.sourced_again hworked htried)
      · have hcons := List.suffix_cons d ds'
        have hvain' := hvain.cons (hbotched.vain (command?_of_daemonArgv hargv hstarted.words))
        exact ⟨herror e _ s'' hvain', fun _ _ _ => ⟨hfree.mono hcons, hvain', htried.mono hcons⟩⟩
    · intro k e ds' s' hP
      obtain ⟨hfree, hvain, htried⟩ := hP
      refine (keeps_between (P := VainFrom ds')
        (fun ds₁ hds₁ => (htried.mono hds₁.suffix).ne_nil) (fun f hf e ds₁ s₁ hds₁ => ?_)
        bound _ k e (VainFrom.refl ds')).mono fun r ds'' s'' h => ?_
      · exact (hrecover f hf e ds₁ s₁ (hfree.mono hds₁.suffix)).mono fun _ ds₂ _ h => hds₁.trans h
      · have hlater := h.1.suffix
        have hvain' := hvain.trans h.1
        exact ⟨⟨hfree.mono hlater, hvain', htried.mono hlater⟩, fun e _ => herror e ds'' s'' hvain'⟩
    · rw [← keeps_iff_run]
      refine keeps_attemptCommand (fun s' c hstarted => ?_)
        (fun d ended s' _ hd => ⟨hok d ended ds s' hd hrefl, fun e he => absurd he (by simp)⟩)
        (fun e s' hfailure _ => ⟨herror e ds s' hrefl, fun e' he hretries => ?_⟩)
        fun e d s' hstarted hbotched => ?_
      · exact hrule s' c ⟨id, s₁, argv, hfound, hargv, hmade, hstarted⟩
      · cases he
        rw [isStuck_of_not_failure hfailure] at hretries
        exact absurd hretries (by simp)
      · have hvain := hrefl.cons (hbotched.vain (command?_of_daemonArgv hargv hstarted.words))
        have htried : Tried s n argv (d :: ds) := hstarted.tried <| by
          rw [core_announced, State.core_withWorld, hfound.core]
        exact ⟨herror e _ s' hvain, fun _ _ _ => ⟨hopen d, hvain, htried⟩⟩

/-- The fault of an operation, if it ends with one, is no failure of the checker and has one of
some reasons. -/
def Escapes {α : Type} (reason : Fault → Prop) (r : Except Fault α) : Prop :=
  ∀ e, r = .error e → isFailure e = false ∧ reason e

theorem escapes_ok {α : Type} (reason : Fault → Prop) (a : α) :
    Escapes reason (.ok a : Except Fault α) := fun _ he => absurd he (by simp)

theorem Escapes.imp {α : Type} {reason reason' : Fault → Prop} {r : Except Fault α}
    (h : Escapes reason r) (himp : ∀ e, reason e → reason' e) : Escapes reason' r :=
  fun e he => ⟨(h e he).1, himp e (h e he).2⟩

theorem Escapes.error {α β : Type} {reason : Fault → Prop} {e : Fault}
    (h : Escapes reason (.error e : Except Fault α)) :
    Escapes reason (.error e : Except Fault β) := by
  rintro _ ⟨⟩
  exact h e rfl

/-- A handler for the failures of the checker lets everything else through. -/
theorem escapes_error {α : Type} {reason : Fault → Prop} {e : Fault} (he : isFailure e = false)
    (hreason : reason e) : Escapes reason (.error e : Except Fault α) := by
  rintro _ ⟨⟩
  exact ⟨he, hreason⟩

theorem escapes_of_not_failure {α : Type} {reason : Fault → Prop} {e : Fault}
    (he : ¬ isFailure e = true) (hreason : isFailure e = true ∨ reason e) :
    Escapes reason (.error e : Except Fault α) :=
  escapes_error (by simpa using he) (hreason.resolve_left he)

/-- What a handle cannot be looked up for is no failure of the checker. -/
theorem isFailure_of_unhandled {e : Fault} (he : Unhandled n e s) : isFailure e = false := by
  rcases he with hstatus | hroot
  · exact isFailure_of_path? hstatus
  · exact isFailure_of_resolve hroot

theorem escapes_handle {α : Type} {reason : Fault → Prop} {e : Fault} (he : Unhandled n e s)
    (hreason : reason e) : Escapes reason (.error e : Except Fault α) :=
  escapes_error (isFailure_of_unhandled he) hreason

theorem isFailure_of_removeStatusFile {h : Handle} {w : World} {e : Fault}
    (he : (h.removeStatusFile.exec w).1 = .error e) : isFailure e = false := by
  have hget : (get : Act World).exec w = (.ok w, w) := rfl
  rw [Handle.removeStatusFile, exec_bind, hget] at he
  dsimp only at he
  split at he
  · cases he
  · cases he
  · cases he
    exact isFailure_files _ _

/-- Why a fault gets past the killing of a daemon. -/
def Unkilled (n : Nat) (answer : Option (Except Fault Ended)) (s : State) (e : Fault) : Prop :=
  Unworkable n e s ∨ Refused Handle.ensureDirectories n e s ∨ Raised e answer

/-- Killing keeps to any rule that allows whatever comes from settings in force. -/
theorem keeps_kill (hopen : Open n rule ds) :
    (kill n).Keeps (calls rule)
      (fun r ds' s' => VainFrom ds ds' ∧ Escapes (Unkilled n (lastAnswer? ds') s') r) ds s := by
  have hrefl := VainFrom.refl ds
  -- a failure ends as a refusal, any other fault goes on
  have hfail : ∀ e ds' s', VainFrom ds ds' →
      (isFailure e = true ∨ Unkilled n (lastAnswer? ds') s' e) →
      (if isFailure e = true then
      (do
        let ws ← Op.workspace n
        log .warning .adapter s!"Failed to kill daemon for {ws.root.text}: {e.message}"
        return false)
      else throw e : Op Bool).Keeps (calls rule)
        (fun r ds' s' => VainFrom ds ds' ∧ Escapes (Unkilled n (lastAnswer? ds') s') r) ds' s' := by
    intro e ds' s' hds hreason
    split
    · simp only [keeps_bind, keeps_workspace, next_ok, keeps_log, calls_write, State.core_record,
        true_and, keeps_pure]
      exact ⟨hds, escapes_ok _ _⟩
    · next hfailure =>
      rw [keeps_throw]
      exact ⟨hds, escapes_of_not_failure hfailure hreason⟩
  rw [kill]
  simp only [keeps_bind]
  refine keeps_handle (fun id s₁ _ => ?_) fun e he =>
    (next_error _ _ _).2 ⟨hrefl, escapes_handle he (.inl (.handle he))⟩
  simp only [next_ok, keeps_bind, Op.keeps_attempt]
  refine keeps_give_of_attempts (fun id' s₂ argv hfound hargv _ delay => ?_) fun e s' he =>
    hfail e ds s' hrefl (.inr (he.imp_right .inl))
  have hkills : ∀ d : Dealing, words argv = .ok d.call.argv → VainFrom ds (d :: ds) :=
    fun d hd => hrefl.cons (vain_of_ne (command?_of_daemonArgv hargv hd) (by decide))
  -- with a bound of one there is one attempt, and nothing between attempts
  rw [Retry.bounded, if_neg (by decide)]
  show Prog.Keeps _ _ (Daemon.attempt n id' argv "kill").run _ _
  rw [← keeps_iff_run]
  refine keeps_attemptCommand (fun s' c hstarted => ?_) (fun d ended s' hd _ => ?_)
    (fun e s' _ he => ?_) fun e d s' hstarted hbotched => ?_
  · refine hopen ds (List.suffix_refl ds) s' c
      (hstarted.sourced (.daemon hfound (.inl rfl) hargv) ?_)
    rw [core_announced, State.core_withWorld, hfound.core]
  · simp only [next_ok, setStarted, keeps_bind, keeps_modify, calls_write, State.core_setHandle,
      true_and, keeps_pure]
    exact ⟨hkills d hd.words, escapes_ok _ _⟩
  · have he' := he.resolve_right (words_ne_error_of_daemonArgv hargv)
    exact hfail e ds s' hrefl (.inr (.inl he'))
  · exact hfail e (d :: ds) s' (hkills d hstarted.words)
      (hbotched.reason.imp_right fun he => .inr (.inr he))

theorem keeps_recoverStuck (hopen : Open n rule ds) :
    (recoverStuck n).Keeps (calls rule) (fun _ ds' _ => VainFrom ds ds') ds s := by
  rw [recoverStuck]
  simp only [keeps_bind, keeps_workspace, next_ok, keeps_log, calls_write, State.core_record,
    true_and]
  refine (keeps_kill hopen).mono fun r ds' s' hr => ?_
  have hds := hr.1
  cases r with
  | error e => exact (next_error _ _ _).2 hds
  | ok killed =>
    simp only [next_ok]
    split
    · simp only [keeps_bind]
      refine keeps_handle (fun id s₁ _ => ?_) fun e _ => (next_error _ _ _).2 hds
      simp only [next_ok, withHandle, keeps_bind, keeps_state, keeps_act, calls_write,
        State.core_withWorld, true_and]
      cases ((s₁.handle id).removeStatusFile.exec s₁.world).1 with
      | error e => exact (next_error _ _ _).2 hds
      | ok removed =>
        simp only [next_ok, setStarted, keeps_modify, calls_write, State.core_setHandle, true_and]
        exact hds
    · rw [keeps_pure]
      exact hds

/-- A daemon command keeps to a rule that allows its first process and, after that, whatever comes
from settings in force; its result is what the last process says. -/
theorem keeps_run {Q : Except Fault RunResult → List Dealing → State → Prop} {command : String}
    {args : List Json} {retryOnStuck : Bool}
    (hargs : args = [] ∨ (s.workspace n).runArgs s.world = .ok args)
    (hrule : ∀ s' c, Given s n command args s' c → rule ds s' c)
    (hopen : ∀ d, Open n rule (d :: ds))
    (hok : ∀ d ended ds' s', d.answer = .ok ended → VainFrom ds ds' →
      Q (.ok (.judge command ended)) (d :: ds') s')
    (herror : ∀ e ds' s', VainFrom ds ds' → Q (.error e) ds' s') :
    (run n command args retryOnStuck).Keeps (calls rule) Q ds s := by
  rw [run]
  simp only [keeps_bind, keeps_state, next_ok]
  refine keeps_give hargs hrule hopen (fun f hf e ds' s' hfree => ?_) hok herror
  obtain rfl : (fun _ => recoverStuck n) = f := by simpa using hf
  exact keeps_recoverStuck hfree

/-- A call of the checker itself keeps to a rule that allows its process. -/
theorem keeps_runDirect {Q : Except Fault RunResult → List Dealing → State → Prop}
    {args : List Json}
    (hrule : ∀ front s' c, (s.workspace n).command s.world .direct = .ok front →
      Started s n (front.map .str ++ args) s' c → rule ds s' c)
    (hok : ∀ d ended s', d.answer = .ok ended →
      Q (.ok (.judge (if hasProgramText args then "-c" else "check") ended)) (d :: ds) s')
    (herror : ∀ e ds' s', ds <:+ ds' → Q (.error e) ds' s') :
    (runDirect n args).Keeps (calls rule) Q ds s := by
  rw [runDirect]
  simp only [keeps_bind, keeps_workspace, next_ok, keeps_look]
  cases hfront : (s.workspace n).command s.world .direct with
  | error e => exact (next_error _ _ _).2 (herror e ds s (List.suffix_refl ds))
  | ok front =>
    simp only [next_ok]
    exact keeps_invoke (fun s' c h => hrule front s' c hfront h)
      (fun d ended s' _ hd => hok d ended s' hd)
      (fun e s' _ _ => herror e ds s' (List.suffix_refl ds))
      fun e d s' _ _ => herror e (d :: ds) s' (List.suffix_cons d ds)

/-! ## Stopping -/

/-- A process that stops a daemon. -/
def IsStop (c : Call) : Prop :=
  ∃ ws w h argv, Workspace.daemonArgv ws w h "stop" [] = .ok argv ∧ words argv = .ok c.argv

theorem IsStop.vain {d : Dealing} (h : IsStop d.call) : Vain d := by
  obtain ⟨ws, w, handle, argv, hargv, hwords⟩ := h
  exact vain_of_ne (command?_of_daemonArgv hargv hwords) (by decide)

/-- The rule for the processes that stop a daemon. -/
def stopRule (n : Nat) (ds : List Dealing) (s : State) (c : Call) : Prop :=
  IsStop c ∧ sourcedRule n ds s c

theorem isStop_of_ruled (hruled : Ruled (stopRule n) ds) : ∀ d ∈ ds, IsStop d.call := by
  induction ds with
  | nil => simp
  | cons d ds ih =>
    rintro d' (_ | ⟨_, hd'⟩)
    · exact hruled.1.1
    · exact ih hruled.2 d' hd'

/-- It cannot be told whether a workspace has a daemon to stop. -/
def Unseen (n : Nat) (e : Fault) (s : State) : Prop :=
  ∃ id, s.handleOf.get? (s.key n) = some id ∧ isAbsent s id = .error e

theorem isFailure_of_isAbsent {id : Nat} {e : Fault} (h : isAbsent s id = .error e) :
    isFailure e = false := by
  rw [isAbsent] at h
  split at h
  · exact absurd h (by simp)
  · cases hexists : (s.handle id).statusFileExists s.world with
    | ok there => simp [hexists, bind, Except.bind, pure, Except.pure] at h
    | error e' =>
      simp only [hexists, bind, Except.bind, Except.error.injEq] at h
      exact h ▸ isFailure_of_granted hexists

/-- Why a fault gets past the stopping of a daemon. -/
def Unstopped (n : Nat) (answer : Option (Except Fault Ended)) (s : State) (e : Fault) : Prop :=
  Unworkable n e s ∨ Raised e answer ∨ Unseen n e s

/-- How an attempt to stop a daemon ends: what is to be tried again has been tried. -/
structure StopTried (s : State) (n : Nat) (argv : List Json) (ds : List Dealing)
    (r : Except Fault Bool) (ds' : List Dealing) (s' : State) : Prop where
  later : ds <:+ ds'
  tried : ∀ e, r = .error e → isFailure e = true → Tried s n argv ds'
  reason : ∀ e, r = .error e → isFailure e = true ∨ Unstopped n (lastAnswer? ds') s' e

theorem stopTried_ok {argv : List Json} {s' : State} {stopped : Bool} (hds : ds <:+ ds') :
    StopTried s n argv ds (.ok stopped) ds' s' :=
  ⟨hds, fun _ he => absurd he (by simp), fun _ he => absurd he (by simp)⟩

theorem keeps_stopAttempt {argv : List Json} {number : Nat}
    (hrule : ∀ s' c, Started s n argv s' c → rule ds s' c) (hwords : ∀ e, words argv ≠ .error e) :
    (stopAttempt n argv number).Keeps (calls rule) (StopTried s n argv ds) ds s := by
  have hfail : ∀ e ds' s', ds <:+ ds' → (isFailure e = true → Tried s n argv ds') →
      (isFailure e = true ∨ Unstopped n (lastAnswer? ds') s' e) →
      (if (decide (1 < number) && saysNotRunning e) = true then
      (do
        let ws ← Op.workspace n
        log .info .adapter s!"Daemon for {ws.root.text} is not running"
        return true)
      else throw e : Op Bool).Keeps (calls rule) (StopTried s n argv ds) ds' s' := by
    intro e ds' s' hds htried hreason
    split
    · simp only [keeps_bind, keeps_workspace, next_ok, keeps_log, calls_write, State.core_record,
        true_and, keeps_pure]
      exact stopTried_ok hds
    · rw [keeps_throw]
      refine ⟨hds, ?_, ?_⟩ <;> rintro _ ⟨⟩
      · exact htried
      · exact hreason
  rw [stopAttempt]
  simp only [keeps_bind, Op.keeps_attempt]
  refine keeps_invoke hrule (fun d ended s' _ _ => ?_) (fun e s' hfailure he => ?_)
    fun e d s' hstarted hbotched => ?_
  · simp only [next_ok, keeps_pure]
    exact stopTried_ok (List.suffix_cons d ds)
  · simp only [next_ok]
    exact hfail e ds s' (List.suffix_refl ds) (fun h => absurd (hfailure.symm.trans h) (by simp))
      (.inr (.inl (he.resolve_right (hwords e))))
  · simp only [next_ok]
    exact hfail e (d :: ds) s' (List.suffix_cons d ds) (fun _ => hstarted.tried rfl)
      (hbotched.reason.imp_right fun he => .inr (.inl he))

/-- Stopping keeps to any rule that allows processes that stop daemons and come from settings in
force. -/
theorem keeps_stop (hrule : ∀ ds' s' c, ds <:+ ds' → stopRule n ds' s' c → rule ds' s' c) :
    (stop n).Keeps (calls rule)
      (fun r ds' s' => ds <:+ ds' ∧ Escapes (Unstopped n (lastAnswer? ds') s') r) ds s := by
  have hrefl := List.suffix_refl ds
  -- a failure ends as a refusal, any other fault goes on
  have hfail : ∀ (text : String) e ds' s', ds <:+ ds' →
      (isFailure e = true ∨ Unstopped n (lastAnswer? ds') s' e) → (if isFailure e = true then
      (do
        log .warning .adapter text
        return false)
      else throw e : Op Bool).Keeps (calls rule)
        (fun r ds' s' => ds <:+ ds' ∧ Escapes (Unstopped n (lastAnswer? ds') s') r) ds' s' := by
    intro text e ds' s' hds hreason
    split
    · simp only [keeps_bind, keeps_log, calls_write, State.core_record, true_and, next_ok,
        keeps_pure]
      exact ⟨hds, escapes_ok _ _⟩
    · next hfailure =>
      rw [keeps_throw]
      exact ⟨hds, escapes_of_not_failure hfailure hreason⟩
  rw [stop]
  simp only [keeps_bind]
  refine keeps_handle (fun id s₁ hfound => ?_) fun e he =>
    (next_error _ _ _).2 ⟨hrefl, escapes_handle he (.inl (.handle he))⟩
  simp only [next_ok, keeps_bind, keeps_state, keeps_look]
  cases habsent : isAbsent s₁ id with
  | error e =>
    have hentry : s₁.handleOf.get? (s₁.key n) = some id := by
      rw [State.key, State.workspace_of_core hfound.core]
      exact hfound.entry
    exact (next_error _ _ _).2 ⟨hrefl, escapes_error (isFailure_of_isAbsent habsent)
      (.inr (.inr ⟨id, hentry, habsent⟩))⟩
  | ok absent =>
  rw [next_ok]
  split
  · simp only [keeps_bind, keeps_log, calls_write, State.core_record, true_and, next_ok, keeps_pure]
    exact ⟨hrefl, escapes_ok _ _⟩
  · simp only [keeps_bind, Op.keeps_attempt]
    refine keeps_argv (fun id' s₂ argv hfound₂ hargv => ?_) fun e s' he => ?_
    · simp only [next_ok, keeps_bind, Op.keeps_attempt]
      rw [keeps_iff_run]
      show Prog.Keeps _ _ (Retry.bounded 2 _ _ _) _ _
      rw [Retry.bounded, if_neg (by decide)]
      have hworked : WorkedOut s₁ n argv := .daemon hfound₂ (.inl rfl) hargv
      -- an attempt at the start, or after an earlier one with the same command line
      have hstop : ∀ k ds' s', ds <:+ ds' → (s'.core = s₁.core ∨ Tried s₁ n argv ds') →
          Prog.Keeps (calls rule) (StopTried s₁ n argv ds) (stopAttempt n argv k).run ds' s' := by
        intro k ds' s' hds hsource
        rw [← keeps_iff_run]
        refine (keeps_stopAttempt (fun s'' c h => ?_) fun e =>
          words_ne_error_of_daemonArgv hargv).mono
          fun _ ds'' _ h => ⟨hds.trans h.later, ?_, h.reason⟩
        · refine hrule ds' s'' c hds ⟨⟨_, _, _, argv, hargv, h.words⟩, ?_⟩
          rcases hsource with hcore | htried
          · exact h.sourced hworked hcore
          · exact h.sourced_again hworked htried
        · intro e he hfailure
          rcases hsource with hcore | htried
          · obtain ⟨d, hd, hwords, hws⟩ := h.tried e he hfailure
            exact ⟨d, hd, hwords, hws.trans (State.workspace_of_core hcore n)⟩
          · exact htried.mono h.later
      have hdone : ∀ stopped ds' s', ds <:+ ds' → (do
          setStarted id false
          log .info .adapter ("Stopped daemon for " ++ (s₁.workspace n).root.text)
          return stopped : Op Bool).Keeps (calls rule)
            (fun r ds' s' => ds <:+ ds' ∧ Escapes (Unstopped n (lastAnswer? ds') s') r) ds' s' := by
        intro stopped ds' s' hds
        simp only [setStarted, keeps_bind, keeps_modify, keeps_log, calls_write,
          State.core_record, State.core_setHandle, true_and, next_ok, keeps_pure]
        exact ⟨hds, escapes_ok _ _⟩
      refine keeps_attemptsFrom (P := fun ds' _ => ds <:+ ds' ∧ Tried s₁ n argv ds')
        (fun k ds' s' hP => ?_) (fun k e ds' s' hP => ?_) _ _ ?_
      · refine (hstop k ds' s' hP.1 (.inr hP.2)).mono fun r ds'' s'' h =>
          ⟨?_, fun e he hfailure => ⟨h.later, h.tried e he hfailure⟩⟩
        cases r with
        | error e => exact hfail _ e ds'' s'' h.later (h.reason e rfl)
        | ok stopped => exact hdone stopped ds'' s'' h.later
      · -- there is no recovery that could go wrong between the attempts
        refine (keeps_between (P := fun ds' => ds <:+ ds' ∧ Tried s₁ n argv ds')
          (fun _ hds => hds.2.ne_nil) (fun f hf => absurd hf (by simp)) 2 _ k e hP).mono
          fun r ds'' s'' h => ⟨h.1, fun e he => ?_⟩
        rw [h.2 rfl] at he
        exact absurd he (by simp)
      · refine (hstop 1 ds s₂ hrefl (.inl hfound₂.core)).mono fun r ds'' s'' h =>
          ⟨?_, fun e he hfailure => ⟨h.later, h.tried e he hfailure⟩⟩
        cases r with
        | error e => exact hfail _ e ds'' s'' h.later (h.reason e rfl)
        | ok stopped => exact hdone stopped ds'' s'' h.later
    · rw [next_ok]
      exact hfail _ e ds s' hrefl (.inr (.inl he))

end Daemon

end Overseer
