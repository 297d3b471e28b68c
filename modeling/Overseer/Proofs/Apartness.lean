import Overseer.Proofs.Accord
import Overseer.Proofs.HandleTables

set_option autoImplicit false

/-! # Workspaces that keep apart

All workspaces live in one world, and jobs on several of them change it one after the other. What is
done in the world for a workspace is little (`Doing`): child processes end, the directories of its
daemon's files are made, its status file is removed, and lines go to the log. What a workspace sees
of the world is little as well (`Outset.Sees`). Two worlds are alike for a workspace if it sees the
same in both, whatever is done for it first (`Outset.Alike`), and workspaces keep apart if what is
done for one of them leaves the world alike for all others (`Outset.Apart`).

From this follows what the parts of a job do to the rest of the state: they leave handle, lock,
collection and world of every other workspace as they were (`Outset.Leaves`). Workspaces of a
settled state keep apart if nothing but the log is written (`Outset.Still`). -/

namespace Overseer

/-! ## Registrations -/

namespace State.Coherent

variable {s : State} {n m : Nat}

theorem keys_registered (hs : s.Coherent) : s.registered.map s.key = s.registry.keys := by
  rw [State.registered, Assoc.values, List.map_map, Assoc.keys]
  refine List.map_congr_left fun e he => ?_
  exact (hs.registered e.1 e.2 ((Assoc.get?_eq_some_iff _ _ _).2 he)).2.1

theorem nodup_keys_registered (hs : s.Coherent) : (s.registered.map s.key).Nodup := by
  rw [hs.keys_registered]
  exact s.registry.nodup

/-- Registered workspaces have different keys. -/
theorem eq_of_key (hs : s.Coherent) (hn : n ∈ s.registered) (hm : m ∈ s.registered)
    (hkey : s.key m = s.key n) : m = n :=
  List.inj_on_of_nodup_map hs.nodup_keys_registered hm hn hkey

end State.Coherent

/-! ## Doings -/

/-- Something that is done in the world for a workspace. -/
inductive Doing where
  /-- A child process ends. -/
  | ends (b : Behaviour)
  /-- The directories of the files of its daemon are made. -/
  | directories (h : Handle)
  /-- The status file of its daemon is removed. -/
  | removal (h : Handle)
  /-- A line is written to the log. -/
  | line (r : LogRecord)

/-- The world after something has been done. -/
def Doing.after (w : World) : Doing → World
  | ends b => b.finish w
  | directories h => (h.ensureDirectories.exec w).2
  | removal h => (h.removeStatusFile.exec w).2
  | line r => w.record r

/-- The start of jobs on all registered workspaces, and what may come of it. -/
structure Outset where
  /-- The state in which the jobs are started. -/
  state : State
  /-- How the child processes of a registration may behave. -/
  acts : Nat → Behaviour → Prop
  /-- The worlds that may come about. -/
  worlds : World → Prop

namespace Outset

variable (O : Outset)

/-- The handles that jobs on a registration may use: the one on file, and one that is made in a
world that may come about. -/
inductive Uses (n : Nat) : Handle → Prop
  | onFile {id : Nat} (hid : O.state.handleOf.get? (O.state.key n) = some id) (started : Bool) :
    Uses n { O.state.handle id with started }
  | made {w : World} {configured : Option Path} {h : Handle} (hw : O.worlds w)
    (hconfigured : (O.state.workspace n).statusFile w = .ok configured)
    (hh : Handle.ofRoot w O.state.daemons.identity (O.state.workspace n).root configured = .ok h)
    (started : Bool) : Uses n { h with started }

/-- What may be done in the world for a registration. -/
def Does (n : Nat) : Doing → Prop
  | .ends b => O.acts n b
  | .directories h | .removal h => O.Uses n h
  | .line _ => True

/-- What jobs on a registration see is the same in two worlds: the program to call, the environment
file and how it is read, the root, whether there is a status file, what becomes of the directories
and the removal of it, and the files that its child processes report about. -/
structure Sees (n : Nat) (w w' : World) : Prop where
  environment : w'.environment = w.environment
  libraries : w'.libraries = w.libraries
  command : (O.state.workspace n).command w' .daemon = (O.state.workspace n).command w .daemon
  envFile : ∀ p, (O.state.workspace n).path? w .envFile = .ok (some p) →
    w'.pathExists p = w.pathExists p ∧
      Workspace.envFileText w' p = Workspace.envFileText w p
  root : w'.resolve (O.state.workspace n).root = w.resolve (O.state.workspace n).root
  status : ∀ h, O.Uses n h → h.statusFileExists w' = h.statusFileExists w
  directories : ∀ h, O.Uses n h →
    (h.ensureDirectories.exec w').1 = (h.ensureDirectories.exec w).1
  removal : ∀ h, O.Uses n h → (h.removeStatusFile.exec w').1 = (h.removeStatusFile.exec w).1
  reported : ∀ b found, O.acts n b → Output.parse (Text.outputText b.stdout) = .ok found →
    w'.diagnosticsByFile found = w.diagnosticsByFile found

/-- Two worlds are alike for a registration: jobs on it see the same in both, now and whatever is
done for it before. -/
def Alike (n : Nat) (w w' : World) : Prop :=
  ∀ ds : List Doing, (∀ d ∈ ds, O.Does n d) →
    O.Sees n (ds.foldl Doing.after w) (ds.foldl Doing.after w')

/-- Nothing that is done for a registration alters what jobs on another one see, and neither does
the log. Workspaces with one status file do not keep apart: when it is removed for one of them, it
is gone for the other one. -/
structure Apart : Prop where
  start : O.worlds O.state.world
  worlds : ∀ n ∈ O.state.registered, ∀ d, O.Does n d → ∀ w, O.worlds w → O.worlds (d.after w)
  logged : ∀ w, O.worlds w → ∀ r, O.worlds (w.record r)
  apart : ∀ n ∈ O.state.registered, ∀ m ∈ O.state.registered, m ≠ n → ∀ d, O.Does m d →
    ∀ w, O.worlds w → O.Alike n w (d.after w)
  unread : ∀ n ∈ O.state.registered, ∀ w, O.worlds w → ∀ r, O.Alike n w (w.record r)

variable {O} {n : Nat} {w w' w'' : World}

theorem environment_after (d : Doing) (w : World) : (d.after w).environment = w.environment := by
  cases d with
  | ends b => rfl
  | directories h =>
    obtain ⟨files, hworld, -⟩ := (h.exec_ensureDirectories w).1
    rw [Doing.after, hworld]
  | removal h =>
    obtain ⟨w', hexec, hworn, -⟩ := h.exec_removeStatusFile { world := w }
    rw [Doing.after, hexec]
    exact hworn.environment
  | line r => exact (World.appended_record w r).environment

theorem Uses.marked {h : Handle} (hh : O.Uses n h) (started : Bool) :
    O.Uses n { h with started } := by
  cases hh with
  | onFile hid _ => exact .onFile hid started
  | made hw hconfigured hh _ => exact .made hw hconfigured hh started

theorem Sees.refl (w : World) : O.Sees n w w :=
  ⟨rfl, rfl, rfl, fun _ _ => ⟨rfl, rfl⟩, rfl, fun _ _ => rfl, fun _ _ => rfl, fun _ _ => rfl,
    fun _ _ _ _ => rfl⟩

theorem Sees.trans (h : O.Sees n w w') (h' : O.Sees n w' w'') : O.Sees n w w'' where
  environment := h'.environment.trans h.environment
  libraries := h'.libraries.trans h.libraries
  command := h'.command.trans h.command
  envFile p hp := by
    obtain ⟨hexists, htext⟩ := h.envFile p hp
    rw [← Workspace.path?_of_environment h.environment] at hp
    obtain ⟨hexists', htext'⟩ := h'.envFile p hp
    exact ⟨hexists'.trans hexists, htext'.trans htext⟩
  root := h'.root.trans h.root
  status x hx := (h'.status x hx).trans (h.status x hx)
  directories x hx := (h'.directories x hx).trans (h.directories x hx)
  removal x hx := (h'.removal x hx).trans (h.removal x hx)
  reported b found hb hfound := (h'.reported b found hb hfound).trans (h.reported b found hb hfound)

theorem Alike.refl (w : World) : O.Alike n w w := fun _ _ => .refl _

theorem Alike.trans (h : O.Alike n w w') (h' : O.Alike n w' w'') : O.Alike n w w'' :=
  fun ds hds => (h ds hds).trans (h' ds hds)

theorem Alike.sees (h : O.Alike n w w') : O.Sees n w w' := h [] (by simp)

/-- What is done for a registration keeps worlds alike for it. -/
theorem Alike.after (h : O.Alike n w w') {d : Doing} (hd : O.Does n d) :
    O.Alike n (d.after w) (d.after w') := by
  intro ds hds
  refine h (d :: ds) fun x hx => ?_
  rcases List.mem_cons.1 hx with rfl | hx
  · exact hd
  · exact hds x hx

/-- Lines in the log keep worlds alike. -/
theorem Alike.react (h : O.Alike n w w') (r : Reaction) : O.Alike n (w.react r) (w'.react r) := by
  unfold World.react
  induction r.log generalizing w w' with
  | nil => exact h
  | cons x xs ih => exact ih (h.after (d := .line x) trivial)

/-! ## The state along the way -/

/-- A state that jobs on all workspaces may bring about: registrations are as they were, the world
and the handles on file are some of those that may come about, and every workspace has the
collection that it had. -/
structure Amid (O : Outset) (s : State) : Prop where
  registrations : s.registrations = O.state.registrations
  registry : s.registry = O.state.registry
  daemons : s.daemons = O.state.daemons
  takesNotices : s.takesNotices = O.state.takesNotices
  listeners : s.store.listeners = O.state.store.listeners
  environment : s.world.environment = O.state.world.environment
  world : O.worlds s.world
  sound : s.HandlesSound
  uses : ∀ n ∈ O.state.registered, ∀ id, s.handleOf.get? (O.state.key n) = some id →
    O.Uses n (s.handle id)
  current : ∀ n ∈ O.state.registered, ∃ id c, O.state.store.current.get? (O.state.key n) = some id ∧
    s.store.current.get? (O.state.key n) = some id ∧ s.store.at? id = some c ∧
    c.workspace = O.state.key n

/-- Handle, lock, collection and world of a registration are as they were. -/
structure Stays (O : Outset) (n : Nat) (s s' : State) : Prop where
  handleOf : s'.handleOf.get? (O.state.key n) = s.handleOf.get? (O.state.key n)
  handle : ∀ id, s.handleOf.get? (O.state.key n) = some id → s'.handle id = s.handle id
  lockOf : s'.lockOf.get? (O.state.key n) = s.lockOf.get? (O.state.key n)
  current : s'.store.current.get? (O.state.key n) = s.store.current.get? (O.state.key n)
  collection : ∀ id, s.store.current.get? (O.state.key n) = some id →
    s'.store.at? id = s.store.at? id
  world : O.Alike n s.world s'.world

variable {s s' s'' : State} {m? : Option Nat}

theorem Stays.refl (s : State) : O.Stays n s s :=
  ⟨rfl, fun _ _ => rfl, rfl, rfl, fun _ _ => rfl, .refl _⟩

theorem Stays.trans (h : O.Stays n s s') (h' : O.Stays n s' s'') : O.Stays n s s'' where
  handleOf := h'.handleOf.trans h.handleOf
  handle id hid := (h'.handle id (h.handleOf.trans hid)).trans (h.handle id hid)
  lockOf := h'.lockOf.trans h.lockOf
  current := h'.current.trans h.current
  collection id hid := (h'.collection id (h.current.trans hid)).trans (h.collection id hid)
  world := h.world.trans h'.world

/-- The state is changed for one registration at most. -/
def Leaves (O : Outset) (m? : Option Nat) (s s' : State) : Prop :=
  O.Amid s → O.Amid s' ∧ ∀ n ∈ O.state.registered, m? ≠ some n → O.Stays n s s'

theorem Leaves.refl (s : State) : O.Leaves m? s s := fun hs => ⟨hs, fun _ _ _ => .refl s⟩

theorem Leaves.trans (h : O.Leaves m? s s') (h' : O.Leaves m? s' s'') : O.Leaves m? s s'' := by
  intro hs
  obtain ⟨hs', hstays⟩ := h hs
  obtain ⟨hs'', hstays'⟩ := h' hs'
  exact ⟨hs'', fun n hn hm => (hstays n hn hm).trans (hstays' n hn hm)⟩

theorem Amid.workspace (hs : O.Amid s) (n : Nat) : s.workspace n = O.state.workspace n := by
  simp only [State.workspace, State.registration, hs.registrations]

theorem Amid.key (hs : O.Amid s) (n : Nat) : s.key n = O.state.key n := by
  rw [State.key, hs.workspace, State.key]

/-! ## What parts of a job leave -/

section Leaves

variable (hA : O.Apart)
include hA

theorem Apart.react (hw : O.worlds w) (r : Reaction) :
    O.worlds (w.react r) ∧ ∀ n ∈ O.state.registered, O.Alike n w (w.react r) := by
  unfold World.react
  induction r.log generalizing w with
  | nil => exact ⟨hw, fun n _ => .refl w⟩
  | cons x xs ih =>
    obtain ⟨hworlds, halike⟩ := ih (hA.logged w hw x)
    exact ⟨hworlds, fun n hn => (hA.unread n hn w hw x).trans (halike n hn)⟩

theorem leaves_record (r : LogRecord) : O.Leaves m? s (s.record r) := fun hs =>
  ⟨{ hs with
      environment := (World.appended_record s.world r).environment.trans hs.environment
      sound := ⟨hs.sound.valid, hs.sound.apart⟩
      world := hA.logged _ hs.world r },
    fun n hn _ => { Stays.refl (O := O) s with world := hA.unread n hn _ hs.world r }⟩

/-- Something is done in the world for a registration. -/
theorem leaves_doing (hn : n ∈ O.state.registered) {d : Doing} (hd : O.Does n d) :
    O.Leaves (some n) s { s with world := d.after s.world } := fun hs =>
  ⟨{ hs with
      environment := (environment_after d s.world).trans hs.environment
      sound := ⟨hs.sound.valid, hs.sound.apart⟩
      world := hA.worlds n hn d hd _ hs.world },
    fun m hm hmn => { Stays.refl (O := O) s with
      world := hA.apart m hm n hn (fun h => hmn (h ▸ rfl)) d hd _ hs.world }⟩

end Leaves

theorem leaves_aside (s : State) (notices : List Notice) (sleeps : List Int) :
    O.Leaves m? s { s with notices, sleeps } := fun hs =>
  ⟨{ hs with sound := ⟨hs.sound.valid, hs.sound.apart⟩ },
    fun _ _ _ => { Stays.refl (O := O) s with }⟩

section Own

variable (hO : O.state.Coherent) (hn : n ∈ O.state.registered)
include hO hn

/-- The keys of other registrations are other keys. -/
theorem key_ne {m : Nat} (hm : m ∈ O.state.registered) (hmn : some n ≠ some m) :
    O.state.key m ≠ O.state.key n :=
  fun hkey => hmn (congrArg some (hO.eq_of_key hm hn hkey.symm))

theorem leaves_lock (l count : Nat) :
    O.Leaves (some n) s
      { s with lockOf := s.lockOf.insert (O.state.key n) l, lockCount := count } :=
  fun hs => ⟨{ hs with sound := ⟨hs.sound.valid, hs.sound.apart⟩ },
    fun _ hm hmn => { Stays.refl (O := O) s with
      lockOf := (Assoc.get?_insert _ _ _ _).trans (if_neg (key_ne hO hn hm hmn)) }⟩

theorem leaves_mark {id : Nat} (hid : s.handleOf.get? (O.state.key n) = some id)
    (started : Bool) : O.Leaves (some n) s (s.mark id started) := by
  intro hs
  refine ⟨{ hs with
    sound := (State.handlesLater_mark s id started).sound hs.sound
    uses := fun m hm id' hid' => ?_ }, fun m hm hmn => { Stays.refl (O := O) s with
      handle := fun id' hid' => State.handle_mark_of_ne started ?_ }⟩
  · obtain ⟨b, hb⟩ := State.handle_mark s id id' started
    rw [hb]
    exact (hs.uses m hm id' hid').marked b
  · rintro rfl
    exact key_ne hO hn hm hmn (hs.sound.apart _ _ _ hid hid')

theorem leaves_withNewHandle {h : Handle} (hh : O.Uses n h) :
    O.Leaves (some n) s (s.withNewHandle (O.state.key n) h) := by
  intro hs
  have hold : ∀ m ∈ O.state.registered, some n ≠ some m →
      (s.withNewHandle (O.state.key n) h).handleOf.get? (O.state.key m) =
        s.handleOf.get? (O.state.key m) := fun m hm hmn => by
    rw [State.handleOf_withNewHandle, if_neg (key_ne hO hn hm hmn)]
  have hhandle : ∀ m id, s.handleOf.get? (O.state.key m) = some id →
      (s.withNewHandle (O.state.key n) h).handle id = s.handle id := fun m id hid =>
    State.handle_withNewHandle _ _ (hs.sound.valid _ _ hid)
  refine ⟨{ hs with
    sound := (State.handlesLater_withNewHandle s _ h).sound hs.sound
    uses := fun m hm id hid => ?_ }, fun m hm hmn => { Stays.refl (O := O) s with
      handleOf := hold m hm hmn
      handle := hhandle m }⟩
  by_cases hmn : m = n
  · subst hmn
    rw [State.handleOf_withNewHandle, if_pos rfl] at hid
    cases hid
    rw [State.handle_withNewHandle_self]
    exact hh
  · rw [hold m hm fun h => hmn (Option.some.inj h).symm] at hid
    rw [hhandle m id hid]
    exact hs.uses m hm id hid

/-- The collection of a registration is changed. -/
theorem leaves_withChange (hA : O.Apart) {id : Nat}
    (hid : O.state.store.current.get? (O.state.key n) = some id)
    {f : Collection → Collection × Delta} (hf : ∀ c, (f c).1.workspace = c.workspace) :
    O.Leaves (some n) s (s.withChange id f) := by
  intro hs
  obtain ⟨id', c, hid', hcurrent, hc, hkey⟩ := hs.current n hn
  obtain rfl := Option.some.inj (hid'.symm.trans hid)
  obtain ⟨hworlds, halike⟩ := hA.react hs.world (s.store.change id' f).2.2
  have hother : ∀ m ∈ O.state.registered, some n ≠ some m → ∀ id₁,
      s.store.current.get? (O.state.key m) = some id₁ → id₁ ≠ id' := by
    rintro m hm hmn id₁ hid₁ rfl
    obtain ⟨id₂, c₂, -, hcurrent₂, hc₂, hkey₂⟩ := hs.current m hm
    obtain rfl := Option.some.inj (hcurrent₂.symm.trans hid₁)
    rw [hc] at hc₂
    cases hc₂
    exact key_ne hO hn hm hmn (hkey₂.symm.trans hkey)
  refine ⟨{ hs with
    listeners := ?_
    environment := (World.environment_react _ _).trans hs.environment
    sound := ⟨hs.sound.valid, hs.sound.apart⟩
    world := hworlds
    current := fun m hm => ?_ }, fun m hm hmn => { Stays.refl (O := O) s with
      current := by rw [State.current_withChange hc]
      collection := fun id₁ hid₁ => State.at?_withChange_of_ne hc f (hother m hm hmn id₁ hid₁)
      world := halike m hm }⟩
  · rw [State.store_withChange hc]
    exact hs.listeners
  · rw [State.current_withChange hc]
    by_cases hmn : m = n
    · subst hmn
      exact ⟨id', _, hid, hcurrent, State.at?_withChange_self hc f, (hf c).trans hkey⟩
    · obtain ⟨id₁, c₁, hid₁, hcurrent₁, hc₁, hkey₁⟩ := hs.current m hm
      refine ⟨id₁, c₁, hid₁, hcurrent₁, ?_, hkey₁⟩
      rw [State.at?_withChange_of_ne hc f (hother m hm (fun h => hmn (Option.some.inj h).symm) id₁
        hcurrent₁)]
      exact hc₁

end Own

end Outset

/-! ## Nothing changes -/

namespace World

/-- A world with another list of log records and another error stream. -/
def aside (w : World) (log : List LogRecord) (stderr : String) : World := { w with log, stderr }

section Aside

variable (w : World) (log : List LogRecord) (stderr : String)

@[simp] theorem files_aside : (w.aside log stderr).files = w.files := rfl

@[simp] theorem cwd_aside : (w.aside log stderr).cwd = w.cwd := rfl

@[simp] theorem environment_aside : (w.aside log stderr).environment = w.environment := rfl

@[simp] theorem libraries_aside : (w.aside log stderr).libraries = w.libraries := rfl

@[simp] theorem resolve_aside (p : Path) : (w.aside log stderr).resolve p = w.resolve p := by
  unfold resolve
  rw [files_aside, cwd_aside]

@[simp] theorem pathExists_aside (p : Path) :
    (w.aside log stderr).pathExists p = w.pathExists p := by
  unfold pathExists
  rw [files_aside, cwd_aside]

@[simp] theorem envFileText_aside (p : Path) :
    Workspace.envFileText (w.aside log stderr) p = Workspace.envFileText w p := by
  unfold Workspace.envFileText isDirectory readText readBytes
  rw [files_aside, cwd_aside]

theorem findExecutable_aside (name : String) :
    (w.aside log stderr).findExecutable name = w.findExecutable name := by
  unfold findExecutable lookupVariable
  rw [files_aside, cwd_aside, environment_aside]

theorem executable_aside (ws : Workspace) (v : Json) :
    ws.executable (w.aside log stderr) v = ws.executable w v := by
  have hpath : ∀ root name, (w.aside log stderr).expandPath root name = w.expandPath root name :=
    fun _ _ => rfl
  unfold Workspace.executable
  simp only [pathExists_aside, findExecutable_aside, hpath]

@[simp] theorem command_aside (ws : Workspace) (p : Program) :
    ws.command (w.aside log stderr) p = ws.command w p := by
  simp only [Workspace.command, Workspace.interpreter, executable_aside, pathExists_aside,
    Workspace.path?_of_environment (environment_aside w log stderr)]

@[simp] theorem diagnosticsByFile_aside (found : List Finding) :
    (w.aside log stderr).diagnosticsByFile found = w.diagnosticsByFile found := by
  simp only [diagnosticsByFile, documentPath, resolve_aside]

end Aside

end World

namespace Outset

/-- A handle that is made for a registration finds its directories, and no status file. -/
def isSettled (O : Outset) (n : Nat) : Bool :=
  match (O.state.workspace n).statusFile O.state.world with
  | .error _ => true
  | .ok configured =>
    match Handle.ofRoot O.state.world O.state.daemons.identity (O.state.workspace n).root
        configured with
    | .error _ => true
    | .ok h =>
      match O.state.world.isDirectory h.statusFile.parent,
        O.state.world.isDirectory h.logFile.parent,
        Files.unlink O.state.world.files O.state.world.cwd h.statusFile.text with
      | .ok true, .ok true, .error .notFound => true
      | _, _, _ => false

/-- Nothing is done that changes a file: child processes leave all files alone, the directories of
the daemons' files are there, their status files are not, and the log is written to no file. -/
structure Still (O : Outset) : Prop where
  worlds : ∀ w, O.worlds w ↔ ∃ log stderr, w = O.state.world.aside log stderr
  acts : ∀ n b, O.acts n b → b.writes = [] ∧ b.deletes = []
  sinks : O.state.world.sinks = []
  unused : O.state.handleOf.entries = []
  settled : O.state.registered.all O.isSettled = true

namespace Still

variable {O : Outset} {n : Nat} {w w' : World} (hO : O.Still)
include hO

theorem handle (hn : n ∈ O.state.registered) {h : Handle} (hh : O.Uses n h) :
    h.Housed O.state.world ∧
      Files.unlink O.state.world.files O.state.world.cwd h.statusFile.text = .error .notFound := by
  have hsettled := List.all_eq_true.1 hO.settled n hn
  cases hh with
  | onFile hid started => exact absurd hid (by simp [Assoc.get?, hO.unused])
  | made hw hconfigured hmade started =>
    obtain ⟨log, stderr, rfl⟩ := (hO.worlds _).1 hw
    rw [Workspace.statusFile, Workspace.path?_of_environment (World.environment_aside _ log stderr),
      ← Workspace.statusFile] at hconfigured
    rw [Handle.ofRoot, World.resolve_aside, ← Handle.ofRoot] at hmade
    rw [isSettled, hconfigured] at hsettled
    simp only [hmade] at hsettled
    split at hsettled
    · next hstatus hlog hunlink => exact ⟨⟨hstatus, hlog⟩, hunlink⟩
    · exact absurd hsettled (by simp)

theorem record (hw : O.worlds w) (r : LogRecord) : O.worlds (w.record r) := by
  obtain ⟨log, stderr, rfl⟩ := (hO.worlds w).1 hw
  have hwrite : ∀ w : World, (O.state.world.aside log stderr).sinks.foldl
      (fun w s => w.writeTo r.line s) w = w := fun w => by
    show O.state.world.sinks.foldl _ w = w
    rw [hO.sinks, List.foldl_nil]
  unfold World.record
  split
  · exact hw
  · rw [hwrite]
    exact (hO.worlds _).2 ⟨log ++ [r], stderr, rfl⟩

/-- What is done to the files of a daemon does nothing. -/
theorem exec (hn : n ∈ O.state.registered) (hw : O.worlds w) {h : Handle} (hh : O.Uses n h) :
    h.ensureDirectories.exec w = (.ok (), w) ∧ h.removeStatusFile.exec w = (.ok false, w) := by
  obtain ⟨hhoused, hunlink⟩ := hO.handle hn hh
  obtain ⟨log, stderr, rfl⟩ := (hO.worlds w).1 hw
  refine ⟨Handle.exec_ensureDirectories_of_housed hhoused, ?_⟩
  rw [Handle.removeStatusFile, Daemon.exec_bind, Act.exec_get]
  simp only [World.files_aside, World.cwd_aside, hunlink]
  rfl

theorem after (hn : n ∈ O.state.registered) (hw : O.worlds w) {d : Doing} (hd : O.Does n d) :
    O.worlds (d.after w) := by
  cases d with
  | ends b =>
    obtain ⟨hwrites, hdeletes⟩ := hO.acts n b hd
    rw [Doing.after, Behaviour.finish, hwrites, hdeletes]
    exact hw
  | directories h =>
    rw [Doing.after, (hO.exec hn hw hd).1]
    exact hw
  | removal h =>
    rw [Doing.after, (hO.exec hn hw hd).2]
    exact hw
  | line r => exact hO.record hw r

theorem sees (hn : n ∈ O.state.registered) (hw : O.worlds w) (hw' : O.worlds w') :
    O.Sees n w w' := by
  have hexec := fun h hh => hO.exec hn hw (h := h) hh
  have hexec' := fun h hh => hO.exec hn hw' (h := h) hh
  obtain ⟨log, stderr, rfl⟩ := (hO.worlds w).1 hw
  obtain ⟨log', stderr', rfl⟩ := (hO.worlds w').1 hw'
  constructor
  case directories =>
    intro h hh
    rw [(hexec h hh).1, (hexec' h hh).1]
  case removal =>
    intro h hh
    rw [(hexec h hh).2, (hexec' h hh).2]
  all_goals simp [Handle.statusFileExists]

theorem alike (hn : n ∈ O.state.registered) (hw : O.worlds w) (hw' : O.worlds w') :
    O.Alike n w w' := by
  intro ds hds
  induction ds generalizing w w' with
  | nil => exact hO.sees hn hw hw'
  | cons d ds ih =>
    have hd := hds d List.mem_cons_self
    exact ih (hO.after hn hw hd) (hO.after hn hw' hd) fun d hd => hds d (List.mem_cons_of_mem _ hd)

/-- Where nothing changes, workspaces keep apart. -/
theorem apart : O.Apart where
  start := (hO.worlds _).2 ⟨_, _, rfl⟩
  worlds _ hn _ hd _ hw := hO.after hn hw hd
  logged _ hw r := hO.record hw r
  apart _ hn _ hm _ _ hd _ hw := hO.alike hn hw (hO.after hm hw hd)
  unread _ hn _ hw r := hO.alike hn hw (hO.record hw r)

end Still

end Outset

end Overseer
