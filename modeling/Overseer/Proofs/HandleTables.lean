import Mathlib.Logic.Relation
import Overseer.Proofs.Recovery

set_option autoImplicit false

/-! # The table of handles

Handles are numbered as they come into being, and the table says which number is on file for a
workspace. A number on file is that of a handle, and is on file for one workspace only
(`HandlesSound`). Whoever waits finds the handles that it knows with the paths that they had; what
has come on file meanwhile has got a number of its own (`HandlesLater`).

What a task may do to the shared state depends on what it is about (`Remit`). One that is about a
workspace deals with the handle, the collection and the lock of that workspace; only a task that
registers something or removes it changes registrations (`Touch`). The handles of all other
workspaces stay as they are (`Touches.handleOf_of_ne`, `Touches.handle_of_ne`). A handle that has
the configured status file stays on file as long as its workspace is not removed, and one that
comes on file follows the settings (`Touches.on_file`). -/

namespace Overseer

/-- What a task may deal with. -/
structure Remit where
  /-- The workspace whose daemon and diagnostics it may deal with. -/
  key? : Option String
  /-- Whether it may change registrations. -/
  registers : Bool

theorem World.environment_react (w : World) (r : Reaction) :
    (w.react r).environment = w.environment := by
  unfold react
  induction r.log generalizing w with
  | nil => rfl
  | cons x xs ih => rw [List.foldl_cons, ih, (appended_record w x).environment]

/-- No daemon has been started for a new handle. -/
theorem Daemon.started_of_ofRoot {w : World} {identity : Instance} {root : Path}
    {configured : Option Path} {h : Handle}
    (hh : Handle.ofRoot w identity root configured = .ok h) : h.started = false := by
  simp only [Handle.ofRoot, bind, Except.bind] at hh
  split at hh
  · exact absurd hh (by simp)
  · cases hh
    rfl

namespace State

variable {s s' s'' : State} {k : String} {id : Nat}

/-! ## Handles -/

/-- The state with a new handle on file for a workspace. -/
def withNewHandle (s : State) (k : String) (h : Handle) : State :=
  { s with handles := s.handles ++ [h], handleOf := s.handleOf.insert k s.handles.length }

/-- The state in which a handle says whether a daemon may be running. -/
def mark (s : State) (id : Nat) (started : Bool) : State :=
  s.setHandle id fun h => { h with started }

/-- A handle that has not been given out does not say that a daemon is running. -/
theorem started_of_length_le (h : s.handles.length ≤ id) : s.started id = false := by
  simp [started, handle, List.getElem?_eq_none h]

theorem handle_mark (s : State) (id id' : Nat) (b : Bool) :
    ∃ b', (s.mark id b).handle id' = { s.handle id' with started := b' } := by
  simp only [handle, mark, setHandle, List.getElem?_modify]
  by_cases hid : id = id'
  · subst hid
    cases s.handles[id]? with
    | none => exact ⟨false, rfl⟩
    | some h => exact ⟨b, by simp⟩
  · cases hget : s.handles[id']? with
    | none => exact ⟨false, by simp⟩
    | some h => exact ⟨h.started, by simp [hid]⟩

theorem handle_mark_of_ne {id' : Nat} (b : Bool) (hid : id' ≠ id) :
    (s.mark id b).handle id' = s.handle id' := by
  simp [handle, mark, setHandle, Ne.symm hid]

theorem started_mark_of_ne {id' : Nat} (b : Bool) (hid : id' ≠ id) :
    (s.mark id b).started id' = s.started id' := by
  rw [started, handle_mark_of_ne b hid, started]

theorem started_mark_self (b : Bool) (hid : id < s.handles.length) :
    (s.mark id b).started id = b := by
  simp [started, handle, mark, setHandle, List.getElem?_eq_getElem hid]

theorem mark_mark (s : State) (id : Nat) (b b' : Bool) :
    (s.mark id b).mark id b' = s.mark id b' := by
  have hmodify : ∀ (handles : List Handle) (id : Nat),
      (handles.modify id fun h => { h with started := b }).modify id (fun h =>
        { h with started := b' }) = handles.modify id fun h => { h with started := b' } := by
    intro handles
    induction handles with
    | nil => simp
    | cons h handles ih =>
      intro id
      cases id with
      | zero => rfl
      | succ id => simp [ih]
  simp only [mark, setHandle, hmodify]

theorem started_of_handles (hs : s'.handles = s.handles) : s'.started id = s.started id := by
  rw [started, handle, hs, started, handle]

theorem mark_of_handles (id : Nat) (b : Bool) (hs : s'.handles = s.handles) :
    (s'.mark id b).handles = (s.mark id b).handles := by
  simp only [mark, setHandle, hs]

/-- Marking a handle as it is changes no mark. -/
theorem started_mark_same (id id' : Nat) :
    (s.mark id (s.started id)).started id' = s.started id' := by
  by_cases hid : id' = id
  · subst hid
    rcases Nat.lt_or_ge id' s.handles.length with hlt | hge
    · exact started_mark_self _ hlt
    · rw [started_of_length_le hge, started_of_length_le]
      simpa [mark, setHandle] using hge
  · exact started_mark_of_ne _ hid

@[simp] theorem length_mark (s : State) (id : Nat) (b : Bool) :
    (s.mark id b).handles.length = s.handles.length := by
  simp [mark, setHandle]

@[simp] theorem length_withNewHandle (s : State) (k : String) (h : Handle) :
    (s.withNewHandle k h).handles.length = s.handles.length + 1 := by
  simp [withNewHandle]

theorem handle_withNewHandle (k : String) (h : Handle) (hid : id < s.handles.length) :
    (s.withNewHandle k h).handle id = s.handle id := by
  simp [handle, withNewHandle, List.getElem?_append_left hid]

theorem handle_withNewHandle_self (s : State) (k : String) (h : Handle) :
    (s.withNewHandle k h).handle s.handles.length = h := by
  simp [handle, withNewHandle]

theorem handleOf_withNewHandle (s : State) (k : String) (h : Handle) (k' : String) :
    (s.withNewHandle k h).handleOf.get? k' =
      if k' = k then some s.handles.length else s.handleOf.get? k' :=
  Assoc.get?_insert _ _ _ _

/-! ## Sound tables -/

/-- Numbers on file are numbers of handles, and each is on file for one workspace only. -/
structure HandlesSound (s : State) : Prop where
  valid : ∀ k id, s.handleOf.get? k = some id → id < s.handles.length
  apart : ∀ k k' id, s.handleOf.get? k = some id → s.handleOf.get? k' = some id → k' = k

/-- A handle that is on file for no other workspace. -/
def Mine (s : State) (k : String) (id : Nat) : Prop :=
  id < s.handles.length ∧ ∀ k', s.handleOf.get? k' = some id → k' = k

/-- What others leave of handles and of the table. -/
structure HandlesLater (s s' : State) : Prop where
  length : s.handles.length ≤ s'.handles.length
  paths : ∀ id < s.handles.length, ∃ b, s'.handle id = { s.handle id with started := b }
  entry : ∀ k id, s'.handleOf.get? k = some id →
    s.handleOf.get? k = some id ∨ s.handles.length ≤ id
  sound : s.HandlesSound → s'.HandlesSound

theorem HandlesSound.mine (hs : s.HandlesSound) (hid : s.handleOf.get? k = some id) :
    s.Mine k id :=
  ⟨hs.valid k id hid, fun k' hk' => hs.apart k k' id hid hk'⟩

theorem HandlesLater.of_eq (hhandles : s'.handles = s.handles)
    (hhandleOf : s'.handleOf = s.handleOf) : s.HandlesLater s' where
  length := Nat.le_of_eq (congrArg List.length hhandles.symm)
  paths id _ := ⟨(s.handle id).started, by simp [handle, hhandles]⟩
  entry k id hid := .inl (hhandleOf ▸ hid)
  sound hs := ⟨fun k id hid => by rw [hhandles]; exact hs.valid k id (hhandleOf ▸ hid),
    fun k k' id hid hid' => hs.apart k k' id (hhandleOf ▸ hid) (hhandleOf ▸ hid')⟩

theorem HandlesLater.refl (s : State) : s.HandlesLater s := .of_eq rfl rfl

theorem HandlesLater.trans (h : s.HandlesLater s') (h' : s'.HandlesLater s'') :
    s.HandlesLater s'' where
  length := Nat.le_trans h.length h'.length
  paths id hid := by
    obtain ⟨b, hb⟩ := h.paths id hid
    obtain ⟨b', hb'⟩ := h'.paths id (Nat.lt_of_lt_of_le hid h.length)
    exact ⟨b', by rw [hb', hb]⟩
  entry k id hid := by
    rcases h'.entry k id hid with hid' | hge
    · exact h.entry k id hid'
    · exact .inr (Nat.le_trans h.length hge)
  sound hs := h'.sound (h.sound hs)

theorem HandlesLater.mine (h : s.HandlesLater s') (hid : s.Mine k id) : s'.Mine k id := by
  refine ⟨Nat.lt_of_lt_of_le hid.1 h.length, fun k' hk' => ?_⟩
  rcases h.entry k' id hk' with hold | hge
  · exact hid.2 k' hold
  · exact absurd hid.1 (Nat.not_lt_of_ge hge)

theorem handlesLater_mark (s : State) (id : Nat) (b : Bool) : s.HandlesLater (s.mark id b) where
  length := Nat.le_of_eq (length_mark s id b).symm
  paths id' _ := handle_mark s id id' b
  entry k id' hid' := .inl hid'
  sound hs := ⟨fun k id' hid' => by rw [length_mark]; exact hs.valid k id' hid',
    fun k k' id' => hs.apart k k' id'⟩

theorem handlesLater_withNewHandle (s : State) (k : String) (h : Handle) :
    s.HandlesLater (s.withNewHandle k h) where
  length := by simp [withNewHandle]
  paths id hid := ⟨(s.handle id).started, by rw [handle_withNewHandle k h hid]⟩
  entry k' id hid := by
    rw [handleOf_withNewHandle] at hid
    split at hid
    · exact .inr (Nat.le_of_eq (Option.some.inj hid))
    · exact .inl hid
  sound hs := by
    refine ⟨fun k' id hid => ?_, fun k₁ k₂ id h₁ h₂ => ?_⟩
    · rw [handleOf_withNewHandle] at hid
      simp only [withNewHandle, List.length_append, List.length_singleton]
      split at hid
      · exact Nat.lt_succ_of_le (Nat.le_of_eq (Option.some.inj hid).symm)
      · exact Nat.lt_succ_of_lt (hs.valid k' id hid)
    · rw [handleOf_withNewHandle] at h₁ h₂
      -- a number that was on file is none that is given out now
      have hnew : ∀ k', s.handleOf.get? k' ≠ some s.handles.length := fun k' hk' =>
        absurd (hs.valid k' _ hk') (Nat.lt_irrefl _)
      split at h₁ <;> split at h₂
      · next hk₁ hk₂ => rw [hk₁, hk₂]
      · exact absurd (h₂.trans h₁.symm) (hnew k₂)
      · exact absurd (h₁.trans h₂.symm) (hnew k₁)
      · exact hs.apart k₁ k₂ id h₁ h₂

theorem handlesLater_erase (s : State) (k : String) :
    s.HandlesLater { s with handleOf := s.handleOf.erase k } := by
  have hentry : ∀ k' id, (s.handleOf.erase k).get? k' = some id →
      s.handleOf.get? k' = some id := by
    intro k' id hid
    rw [Assoc.get?_erase] at hid
    split at hid
    · exact absurd hid (by simp)
    · exact hid
  exact ⟨Nat.le_refl _, fun id _ => ⟨_, rfl⟩, fun k' id hid => .inl (hentry k' id hid),
    fun hs => ⟨fun k' id hid => hs.valid k' id (hentry k' id hid),
      fun k₁ k₂ id h₁ h₂ => hs.apart k₁ k₂ id (hentry k₁ id h₁) (hentry k₂ id h₂)⟩⟩

/-! ## What tasks touch -/

/-- The status file that the settings of a registration stand for. -/
def configured (s : State) (n : Nat) : Except Fault (Option Path) :=
  (s.workspace n).statusFile s.world

/-- A handle has the configured status file, if one is configured. -/
def Suits (configured : Option Path) (h : Handle) : Prop := ∀ path ∈ configured, h.statusFile = path

/-- What a task may do to the state in one go. -/
inductive Touch : Remit → State → State → Prop
  | log (t : Remit) (s : State) (r : LogRecord) : Touch t s (s.record r)
  | aside (t : Remit) (s : State) (running : Bool) (notices : List Notice) (sleeps : List Int)
    (lockOf : Assoc String Nat) (lockCount : Nat) :
    Touch t s { s with running, notices, sleeps, lockOf, lockCount }
  | file {t : Remit} {s : State} {k : String} {n : Nat} {configured : Option Path} {h : Handle}
    (ht : t.key? = some k) (hn : n < s.registrations.length) (hkey : s.key n = k)
    (hconfigured : s.configured n = .ok configured)
    (hmiss : ∀ id, s.handleOf.get? k = some id → ¬ Suits configured (s.handle id))
    (hh : Handle.ofRoot s.world s.daemons.identity (s.workspace n).root configured = .ok h) :
    Touch t s (s.withNewHandle k h)
  | mark {t : Remit} {s : State} {k : String} {id : Nat} (ht : t.key? = some k)
    (hid : s.Mine k id) (started : Bool) : Touch t s (s.mark id started)
  | directories {t : Remit} {s : State} {k : String} {id : Nat} (ht : t.key? = some k)
    (hid : s.handleOf.get? k = some id) :
    Touch t s { s with world := ((s.handle id).ensureDirectories.exec s.world).2 }
  | removal {t : Remit} {s : State} {k : String} {id : Nat} (ht : t.key? = some k)
    (hid : s.handleOf.get? k = some id) :
    Touch t s { s with world := ((s.handle id).removeStatusFile.exec s.world).2 }
  | collection {t : Remit} {k : String} (ht : t.key? = some k) (s : State) :
    Touch t s (s.withCollection k)
  | change {t : Remit} {s : State} {k : String} {id : Nat} {c : Collection} (ht : t.key? = some k)
    (hc : s.store.at? id = some c) (hk : c.workspace = k)
    (f : Collection → Collection × Delta) : Touch t s (s.withChange id f)
  /-- Registrations, the registry and collections change with a registration, and with a removal,
  which leaves the workspaces themselves alone. -/
  | register {t : Remit} {s s' : State} (ht : t.registers = true)
    (hhandles : s'.handles = s.handles) (hhandleOf : s'.handleOf = s.handleOf)
    (hdaemons : s'.daemons = s.daemons) (henvironment : s'.world.environment = s.world.environment)
    (hkept : t.key? ≠ none → s'.registrations.length = s.registrations.length ∧
      (∀ n, s'.workspace n = s.workspace n) ∧ ∀ n, s.isRemoved n = true → s'.isRemoved n = true) :
    Touch t s s'
  | forget {t : Remit} {s : State} {k : String} (ht : t.key? = some k) (hk : s.Dropped k) :
    Touch t s { s with handleOf := s.handleOf.erase k }

/-- What a task may do to the state. -/
abbrev Touches (t : Remit) : State → State → Prop := Relation.ReflTransGen (Touch t)

theorem Touch.single {t : Remit} (h : s.Touch t s') : s.Touches t s' := .single h

theorem Touch.handlesLater {t : Remit} (h : s.Touch t s') : s.HandlesLater s' := by
  cases h with
  | file ht hn hkey hconfigured hmiss hh => exact handlesLater_withNewHandle _ _ _
  | mark ht hid started => exact handlesLater_mark _ _ _
  | register ht hhandles hhandleOf hdaemons henvironment hkept => exact .of_eq hhandles hhandleOf
  | forget ht hk => exact handlesLater_erase _ _
  | _ => exact .of_eq rfl rfl

theorem Touches.handlesLater {t : Remit} (h : s.Touches t s') : s.HandlesLater s' := by
  induction h with
  | refl => exact .refl s
  | tail _ h ih => exact ih.trans h.handlesLater

theorem Touch.daemons {t : Remit} (h : s.Touch t s') : s'.daemons = s.daemons := by
  cases h with
  | register ht hhandles hhandleOf hdaemons henvironment hkept => exact hdaemons
  | _ => rfl

theorem Touch.environment {t : Remit} (h : s.Touch t s') :
    s'.world.environment = s.world.environment := by
  cases h with
  | log s r => exact (World.appended_record _ r).environment
  | directories ht hid =>
    obtain ⟨files, hworld, -⟩ := ((s.handle _).exec_ensureDirectories s.world).1
    rw [hworld]
  | removal ht hid =>
    obtain ⟨w, hexec, hworn, -⟩ := (s.handle _).exec_removeStatusFile s
    rw [hexec]
    exact hworn.environment
  | change ht hc hk f => exact World.environment_react _ _
  | register ht hhandles hhandleOf hdaemons henvironment hkept => exact henvironment
  | _ => rfl

/-- Tasks about a workspace keep all workspaces as they are. -/
theorem Touch.workspaces {t : Remit} (h : s.Touch t s') (ht : t.key? ≠ none) :
    s'.registrations.length = s.registrations.length ∧ (∀ n, s'.workspace n = s.workspace n) ∧
      ∀ n, s.isRemoved n = true → s'.isRemoved n = true := by
  cases h with
  | register _ hhandles hhandleOf hdaemons henvironment hkept => exact hkept ht
  | _ => exact ⟨rfl, fun _ => rfl, fun _ hn => hn⟩

theorem Touches.environment {t : Remit} (h : s.Touches t s') :
    s'.world.environment = s.world.environment := by
  induction h with
  | refl => rfl
  | tail _ h ih => rw [h.environment, ih]

theorem Touches.daemons {t : Remit} (h : s.Touches t s') : s'.daemons = s.daemons := by
  induction h with
  | refl => rfl
  | tail _ h ih => rw [h.daemons, ih]

theorem Touches.workspaces {t : Remit} (h : s.Touches t s') (ht : t.key? ≠ none) :
    s'.registrations.length = s.registrations.length ∧ (∀ n, s'.workspace n = s.workspace n) ∧
      ∀ n, s.isRemoved n = true → s'.isRemoved n = true := by
  induction h with
  | refl => exact ⟨rfl, fun _ => rfl, fun _ hn => hn⟩
  | tail _ h ih =>
    obtain ⟨hlength, hworkspace, hremoved⟩ := h.workspaces ht
    exact ⟨hlength.trans ih.1, fun n => (hworkspace n).trans (ih.2.1 n),
      fun n hn => hremoved n (ih.2.2 n hn)⟩

theorem Touches.key {t : Remit} (h : s.Touches t s') (ht : t.key? ≠ none) (n : Nat) :
    s'.key n = s.key n := by
  rw [State.key, (h.workspaces ht).2.1 n, State.key]

theorem Touches.dropped {t : Remit} (h : s.Touches t s') (ht : t.key? ≠ none)
    (hk : s.Dropped k) : s'.Dropped k := by
  obtain ⟨n, hn, hremoved, hkey⟩ := hk
  obtain ⟨hlength, -, hkept⟩ := h.workspaces ht
  exact ⟨n, by rwa [hlength], hkept n hremoved, by rwa [h.key ht]⟩

/-- What is configured depends on settings and on the environment. -/
theorem Touches.configured {t : Remit} (h : s.Touches t s') (ht : t.key? ≠ none) (n : Nat) :
    s'.configured n = s.configured n := by
  rw [State.configured, (h.workspaces ht).2.1 n, Workspace.statusFile,
    Workspace.path?_of_environment h.environment]
  rfl

/-! ## Handles of other workspaces -/

theorem Touch.handleOf_of_ne {t : Remit} (h : s.Touch t s') (hk : t.key? ≠ some k) :
    s'.handleOf.get? k = s.handleOf.get? k := by
  cases h with
  | file ht hn hkey hconfigured hmiss hh =>
    rw [handleOf_withNewHandle, if_neg]
    rintro rfl
    exact hk ht
  | register ht hhandles hhandleOf hdaemons henvironment hkept => rw [hhandleOf]
  | forget ht hdropped =>
    refine (Assoc.get?_erase _ _ _).trans (if_neg ?_)
    rintro rfl
    exact hk ht
  | _ => rfl

theorem Touches.handleOf_of_ne {t : Remit} (h : s.Touches t s') (hk : t.key? ≠ some k) :
    s'.handleOf.get? k = s.handleOf.get? k := by
  induction h with
  | refl => rfl
  | tail _ h ih => rw [h.handleOf_of_ne hk, ih]

/-- The handles of other workspaces are left alone. -/
theorem Touches.handle_of_ne {t : Remit} (h : s.Touches t s') (hs : s.HandlesSound)
    (hk : t.key? ≠ some k) (hid : s.handleOf.get? k = some id) : s'.handle id = s.handle id := by
  induction h with
  | refl => rfl
  | @tail s₁ s₂ h₁ h ih =>
    have hid₁ : s₁.handleOf.get? k = some id := (Touches.handleOf_of_ne h₁ hk).trans hid
    have hlt : id < s₁.handles.length := ((Touches.handlesLater h₁).sound hs).valid k id hid₁
    rw [← ih]
    cases h with
    | file ht hn hkey hconfigured hmiss hh => exact handle_withNewHandle _ _ hlt
    | mark ht hmine started =>
      refine handle_mark_of_ne started ?_
      rintro rfl
      exact hk (by rw [ht, hmine.2 k hid₁])
    | register ht hhandles hhandleOf hdaemons henvironment hkept => simp only [handle, hhandles]
    | _ => rfl

/-! ## The handle of the own workspace -/

/-- A handle comes on file with the status file that the settings stand for. -/
theorem Touches.entry {t : Remit} (h : s.Touches t s') (hs : s.HandlesSound)
    (ht : t.key? = some k) (hid : s'.handleOf.get? k = some id) :
    s.handleOf.get? k = some id ∨ s.handles.length ≤ id ∧ ∃ n < s.registrations.length,
      s.key n = k ∧ ∃ configured, s.configured n = .ok configured ∧
        Daemon.Follows s.daemons.identity configured (s'.handle id) := by
  have hsome : t.key? ≠ none := by simp [ht]
  induction h with
  | refl => exact .inl hid
  | @tail s₁ s₂ h₁ h ih =>
    have hsound₁ := (Touches.handlesLater h₁).sound hs
    -- what was on file before may have got another mark, but no other paths
    have hold : s₁.handleOf.get? k = some id → (s.handleOf.get? k = some id ∨
        s.handles.length ≤ id ∧ ∃ n < s.registrations.length, s.key n = k ∧ ∃ configured,
          s.configured n = .ok configured ∧
            Daemon.Follows s.daemons.identity configured (s₂.handle id)) := by
      intro hid₁
      rcases ih hid₁ with hfirst | ⟨hge, n, hn, hkey, configured, hconfigured, hfollows⟩
      · exact .inl hfirst
      · obtain ⟨b, hb⟩ := h.handlesLater.paths id (hsound₁.valid k id hid₁)
        exact .inr ⟨hge, n, hn, hkey, configured, hconfigured, by rw [hb]; exact hfollows⟩
    cases h with
    | @file _ k' m configured h ht' hn hkey hconfigured hmiss hh =>
      obtain rfl := Option.some.inj (ht'.symm.trans ht)
      rw [handleOf_withNewHandle, if_pos rfl] at hid
      obtain rfl := Option.some.inj hid
      refine .inr ⟨(Touches.handlesLater h₁).length, m, ?_, ?_, configured, ?_, ?_⟩
      · rwa [(Touches.workspaces h₁ hsome).1] at hn
      · rw [← Touches.key h₁ hsome, hkey]
      · rw [← Touches.configured h₁ hsome]
        exact hconfigured
      · rw [handle_withNewHandle_self, ← Touches.daemons h₁]
        exact Daemon.follows_ofRoot hh
    | register _ hhandles hhandleOf hdaemons henvironment hkept => exact hold (hhandleOf ▸ hid)
    | forget ht' hk =>
      obtain rfl := Option.some.inj (ht'.symm.trans ht)
      rw [Assoc.get?_erase, if_pos rfl] at hid
      exact absurd hid (by simp)
    | _ => exact hold hid

/-- For a workspace that has a handle on file there is always one, unless it is removed. -/
theorem Touches.some_on_file {t : Remit} (h : s.Touches t s') (ht : t.key? = some k)
    (hk : ¬ s'.Dropped k) (hs : s.handleOf.get? k ≠ none) : s'.handleOf.get? k ≠ none := by
  have hsome : t.key? ≠ none := by simp [ht]
  induction h with
  | refl => exact hs
  | @tail s₁ s₂ h₁ h ih =>
    have hs₁ := ih fun hd => hk (Touches.dropped (.single h) hsome hd)
    cases h with
    | file ht' hn hkey hconfigured hmiss hh =>
      obtain rfl := Option.some.inj (ht'.symm.trans ht)
      rw [handleOf_withNewHandle, if_pos rfl]
      exact Option.some_ne_none _
    | register _ hhandles hhandleOf hdaemons henvironment hkept => rwa [hhandleOf]
    | forget ht' hdropped =>
      obtain rfl := Option.some.inj (ht'.symm.trans ht)
      obtain ⟨m, hm, hremoved, hkey⟩ := hdropped
      exact absurd ⟨m, hm, hremoved, hkey⟩ hk
    | _ => exact hs₁

/-- A handle with the configured status file stays on file, unless its workspace is removed. -/
theorem Touches.on_file {t : Remit} (h : s.Touches t s') (hs : s.HandlesSound)
    (ht : t.key? = some k) (hk : ¬ s'.Dropped k) {n : Nat}
    (honly : ∀ m < s.registrations.length, s.key m = k → m = n)
    (hid : s.handleOf.get? k = some id)
    (hsuits : n < s.registrations.length → ∀ configured, s.configured n = .ok configured →
      Suits configured (s.handle id)) : s'.handleOf.get? k = some id := by
  have hsome : t.key? ≠ none := by simp [ht]
  induction h with
  | refl => exact hid
  | @tail s₁ s₂ h₁ h ih =>
    have hid₁ := ih fun hd => hk (Touches.dropped (.single h) hsome hd)
    cases h with
    | file ht' hn hkey hconfigured hmiss hh =>
      obtain rfl := Option.some.inj (ht'.symm.trans ht)
      rw [(Touches.workspaces h₁ hsome).1] at hn
      rw [Touches.key h₁ hsome] at hkey
      obtain rfl := honly _ hn hkey
      rw [Touches.configured h₁ hsome] at hconfigured
      obtain ⟨b, hb⟩ := (Touches.handlesLater h₁).paths id (hs.valid _ _ hid)
      refine absurd ?_ (hmiss id hid₁)
      rw [hb]
      exact hsuits hn _ hconfigured
    | register _ hhandles hhandleOf hdaemons henvironment hkept => rwa [hhandleOf]
    | forget ht' hdropped =>
      obtain rfl := Option.some.inj (ht'.symm.trans ht)
      obtain ⟨m, hm, hremoved, hkey⟩ := hdropped
      exact absurd ⟨m, hm, hremoved, hkey⟩ hk
    | _ => exact hid₁

end State

end Overseer
