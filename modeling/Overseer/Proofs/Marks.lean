import Overseer.Proofs.HandleTables
import Overseer.Proofs.Heed

set_option autoImplicit false

/-! # When marks are taken back

A handle is marked when a command is given that leaves a daemon running. The mark is taken back
after the daemon was stopped or killed, in the recovery of a stuck daemon, and when the process of
the command could not be started. Whenever a task waits or ends, a mark that is down has an excuse
in its story (`Excused`): it was down when the task last went on, the task has just stopped or
killed the daemon (`Closes`), or a process was refused, before which there was an excuse or the
command was given for the second time, after a recovery. A recovery has come to its end if a daemon
that was found stuck has been killed, or cannot be killed and its status file is missing
(`Cleared`). A process that is to leave a daemon running is started with the mark up.

All this is said of handles that stay on file. If the status file in the settings changes while a
task waits, the handle that the task knows is not the one that is marked or looked at by others
any more (`History.Fixed`). -/

namespace Overseer

open History

/-! ## Commands -/

/-- Whether a call gives a command that leaves a daemon running. -/
def Call.starts (c : Call) : Bool := c.command?.any Workspace.startsDaemon

namespace Daemon

/-- A call of the checker itself gives no daemon command. -/
theorem command?_of_direct {ws : Workspace} {w : World} {front : List String} {text : String}
    {args : List Json} {c : Call} (hfront : ws.command w .direct = .ok front)
    (hwords : words (front.map .str ++ (.str "-c" :: .str text :: args)) = .ok c.argv) :
    c.command? = none := by
  have hsplit : front.map .str ++ (.str "-c" :: .str text :: args) =
      (front ++ ["-c", text]).map .str ++ args := by simp
  rw [hsplit] at hwords
  obtain ⟨rest, hline⟩ := words_append hwords
  rw [Call.command?, ← hline]
  rcases front_of_command hfront with ⟨executable, rfl⟩ | ⟨interpreter, rfl⟩
  · simp
  · simp

end Daemon

/-! ## Excuses -/

namespace State

/-- A handle on file for a workspace, or one that is not given out yet while none is on file. -/
def Reserved (s : State) (k : String) (id : Nat) : Prop :=
  s.handleOf.get? k = some id ∨ s.handleOf.get? k = none ∧ s.handles.length ≤ id

theorem Reserved.eq {s : State} {k : String} {id id' : Nat} (hs : s.Reserved k id)
    (hid : s.handleOf.get? k = some id') : id' = id := by
  rcases hs with hs | ⟨hs, -⟩
  · exact Option.some.inj (hid.symm.trans hs)
  · rw [hid] at hs
    exact absurd hs (by simp)

theorem reserved_mark {s : State} {k : String} {id id' : Nat} {b : Bool} :
    (s.mark id b).Reserved k id' ↔ s.Reserved k id' := by
  rw [Reserved, length_mark]
  rfl

/-- The status file of the handle on file for a workspace is missing. -/
def FileGone (s : State) (k : String) : Prop :=
  ∃ id, s.handleOf.get? k = some id ∧ (s.handle id).FileGone s.world

/-- A status file stays missing while a task only writes to logs and changes marks. -/
theorem FileGone.kept {s s' : State} {k : String} (hgone : s.FileGone k) (h : s.Kept s') :
    s'.FileGone k := by
  obtain ⟨id, hid, hgone⟩ := hgone
  exact ⟨id, by rw [h.handleOf, hid], hgone.worn h.world.worn (h.handle id).1⟩

end State

/-- Whether the state of a moment is one in which others may go on. -/
def Moment.atRest (m : Moment) : Bool :=
  match m.what with
  | .left _ | .entered _ => false
  | _ => true

namespace History

/-- The story of a task whose process has come back. -/
abbrev back (i : TaskId) (c : Call) (answer : Except Fault Ended) (s s₁ s₂ : State)
    (h : History) : History :=
  ⟨i, .resumed, s₂⟩ :: ⟨i, .returned answer, s₁⟩ :: ⟨i, .spawned c, s⟩ :: h

/-- The last daemon command of the task. -/
def lastCommand? : History → Option String
  | [] => none
  | m :: h => match m.what with
    | .spawned c => c.command?
    | _ => lastCommand? h

/-- The task goes on after it has killed the daemon, or stopped it: a second process that is to
stop the daemon may say that none is running. -/
def Closes : History → Prop
  | ⟨_, .resumed, _⟩ :: ⟨_, .returned answer, _⟩ :: ⟨_, .spawned c, s⟩ :: h =>
    c.command? = some "kill" ∧ (∃ r, Daemon.verdict "kill" ⟨c, s, answer⟩ = .ok r) ∨
    c.command? = some "stop" ∧ ((∃ r, Daemon.verdict "stop" ⟨c, s, answer⟩ = .ok r) ∨
      lastCommand? h = some "stop" ∧ ∃ e, Daemon.verdict "stop" ⟨c, s, answer⟩ = .error e ∧
        Daemon.saysNotRunning e = true)
  | _ => False

/-- The task goes on after a process that was to leave a daemon running found the daemon stuck. -/
def Wedged : History → Prop
  | ⟨_, .resumed, _⟩ :: ⟨_, .returned answer, _⟩ :: ⟨_, .spawned c, s⟩ :: _ =>
    ∃ command, c.command? = some command ∧ Workspace.startsDaemon command = true ∧
      Daemon.FoundStuck command ⟨c, s, answer⟩
  | _ => False

/-- The task could not kill a daemon that it had found stuck: there was no process for that, or it
came back with a failure. -/
inductive Spared : History → Prop
  | untried {h : History} (hh : h.Wedged) : Spared h
  | failed {h : History} (i : TaskId) (c : Call) (answer : Except Fault Ended) (s s₁ s₂ : State)
    {e : Fault} (hc : c.command? = some "kill")
    (he : Daemon.verdict "kill" ⟨c, s, answer⟩ = .error e) (hfailure : Daemon.isFailure e = true)
    (hh : h.Wedged) : Spared (h.back i c answer s s₁ s₂)

/-- The task has cleared away a daemon that it found stuck and could not kill: there is no status
file any more. -/
structure Cleared (k : String) (h : History) (s : State) : Prop where
  spared : h.Spared
  gone : s.FileGone k

/-- Why the mark of a handle may be down while a task with some story waits. -/
inductive Excused (k : String) (id : Nat) : History → Prop
  | down {h : History} (hstart : h.start.started id = false) : Excused k id h
  | closed {h : History} (hclosed : h.Closes) : Excused k id h
  | refused {h : History} (i : TaskId) (c : Call) (e : Fault) (s : State) (hh : Excused k id h) :
    Excused k id (h.back i c (.error e) s s s)
  | repeated {h : History} (i : TaskId) (c : Call) (e : Fault) (s : State)
    (hc : c.starts = true) (hh : h.Cleared k s) : Excused k id (h.back i c (.error e) s s s)
  | left {h : History} (i : TaskId) (l : Nat) (s : State) (hh : Excused k id h) :
    Excused k id (⟨i, .left l, s⟩ :: h)

/-- Whenever others could go on, a handle was on file for a workspace or not given out yet. -/
def Fixed (h : History) (k : String) (id : Nat) : Prop :=
  ∀ m ∈ h, m.atRest = true → m.state.Reserved k id

/-- Marks that are down have excuses. -/
structure Marked (k : String) (excuse : Nat → Prop) (h : History) (s : State) : Prop where
  length : h.start.handles.length ≤ s.handles.length
  marks : ∀ id, h.Fixed k id → s.Reserved k id → s.started id = false → excuse id

/-- Marks that are down have excuses in the story. -/
abbrev Tidy (k : String) (h : History) (s : State) : Prop := Marked k (Excused k · h) h s

/-- A handle was on file for a workspace when others could go on. -/
def Seen (h : History) (k : String) (id : Nat) : Prop :=
  ∃ m ∈ h, m.atRest = true ∧ m.state.handleOf.get? k = some id

/-- A handle that the task has looked up. -/
structure Familiar (k : String) (id : Nat) (h : History) (s : State) : Prop where
  mine : s.Mine k id
  entry : s.handleOf.get? k = some id ∨ h.Seen k id

section Lemmas

variable {i : TaskId} {h h' : History} {s s' : State} {k : String} {id id' : Nat}

theorem Fixed.of_suffix (hh : h'.Fixed k id) (hsuffix : h <:+ h') : h.Fixed k id :=
  fun m hm => hh m (hsuffix.subset hm)

theorem Fixed.of_cons {m : Moment} (hh : Fixed (m :: h) k id) : h.Fixed k id :=
  hh.of_suffix (List.suffix_cons m h)

theorem suffix_back (i : TaskId) (c : Call) (answer : Except Fault Ended) (s s₁ s₂ : State)
    (h : History) : h <:+ h.back i c answer s s₁ s₂ :=
  ((List.suffix_cons _ h).trans (List.suffix_cons _ _)).trans (List.suffix_cons _ _)

/-- The only handle that stays on file is the one that the task has looked up. -/
theorem Familiar.eq (hid : Familiar k id h s) (hh : h.Fixed k id') (hs : s.Reserved k id') :
    id = id' := by
  rcases hid.entry with hentry | ⟨m, hm, hrest, hentry⟩
  · exact hs.eq hentry
  · exact (hh m hm hrest).eq hentry

/-- Nothing has to be excused when a task has just gone on. -/
theorem tidy_resumed (i : TaskId) (h : History) (s : State) :
    Tidy k (⟨i, .resumed, s⟩ :: h) s :=
  ⟨Nat.le_refl _, fun _ _ _ hdown => .down hdown⟩

/-- As long as no mark is changed, marks that are down keep their excuses. -/
theorem Marked.later {excuse : Nat → Prop} (hh : Marked k excuse h s) (hs : s.HandlesLater s')
    (hmarks : ∀ id, s'.started id = s.started id)
    (hexcuse : ∀ id, h.start.started id = false → excuse id) : Marked k excuse h s' := by
  refine ⟨Nat.le_trans hh.length hs.length, fun id hfixed hreserved hdown => ?_⟩
  rw [hmarks] at hdown
  have hnew : s.handles.length ≤ id → excuse id := fun hge =>
    hexcuse id (State.started_of_length_le (Nat.le_trans hh.length hge))
  rcases hreserved with hentry | ⟨-, hge⟩
  · rcases hs.entry k id hentry with hold | hge
    · exact hh.marks id hfixed (.inl hold) hdown
    · exact hnew hge
  · exact hnew (Nat.le_trans hs.length hge)

theorem Tidy.later (hh : Tidy k h s) (hs : s.HandlesLater s')
    (hmarks : ∀ id, s'.started id = s.started id) : Tidy k h s' :=
  Marked.later hh hs hmarks fun _ => .down

theorem Marked.imp {excuse excuse' : Nat → Prop} (hh : Marked k excuse h s)
    (himp : ∀ id, excuse id → excuse' id) : Marked k excuse' h s :=
  ⟨hh.length, fun id hfixed hreserved hdown => himp id (hh.marks id hfixed hreserved hdown)⟩

/-- A mark that goes up needs no excuse. -/
theorem Familiar.marked (hid : Familiar k id h s)
    (hlength : h.start.handles.length ≤ s.handles.length) (excuse : Nat → Prop) :
    Marked k excuse h (s.mark id true) := by
  refine ⟨by rwa [State.length_mark], fun id' hfixed hreserved hdown => ?_⟩
  obtain rfl := hid.eq hfixed (State.reserved_mark.1 hreserved)
  rw [State.started_mark_self true hid.mine.1] at hdown
  exact absurd hdown (by simp)

/-- A mark that goes down needs an excuse, and no other mark changes. -/
theorem Familiar.marked_down {excuse : Nat → Prop} (hid : Familiar k id h s)
    (hlength : h.start.handles.length ≤ s.handles.length) (hexcuse : excuse id) :
    Marked k excuse h (s.mark id false) := by
  refine ⟨by rwa [State.length_mark], fun id' hfixed hreserved _ => ?_⟩
  obtain rfl := hid.eq hfixed (State.reserved_mark.1 hreserved)
  exact hexcuse

theorem Seen.mono (hid : h.Seen k id) (hsuffix : h <:+ h') : h'.Seen k id := by
  obtain ⟨m, hm, hrest, hentry⟩ := hid
  exact ⟨m, hsuffix.subset hm, hrest, hentry⟩

theorem Familiar.later (hid : Familiar k id h s) (hsuffix : h <:+ h') (hs : s.HandlesLater s')
    (hentry : s.handleOf.get? k = some id → s'.handleOf.get? k = some id ∨ h'.Seen k id) :
    Familiar k id h' s' :=
  ⟨hs.mine hid.mine, hid.entry.elim hentry fun hseen => .inr (hseen.mono hsuffix)⟩

end Lemmas

end History

end Overseer
