import Overseer.Proofs.DaemonCalls
import Overseer.Proofs.Filing
import Overseer.Proofs.History

set_option autoImplicit false

/-! # How operations conduct themselves

What every operation sees to, in terms of its story. Whenever it waits, all locks and all
diagnostics are as they were when it last went on (`Calm`); at its end it may have given up the lock
of a workspace, but only if it removes it (`Steady`). It waits for at most one lock, that of the
workspace which it checks, and holds it to the end. The first process that a check starts, apart
from those that stop a daemon, is worked out from the settings in force (`WellRun`), and so is any
other process, but for the command line of one that is tried again (`Sourced`). At its end it has
changed diagnostics only if it is a check with a good result, and then to what that result stands
for (`Settled`) and says to be their number (`Counted`); it has filed diagnostics only for a
registration that has not been removed (`Placed`). It makes a collection for a workspace that is not
registered only if it is a restart whose registration was removed while it waited (`Outlives`). If
it was given the number of a registration it ends with the result of a check, or with a fault that
nothing handles (`Request.Answers`). A check of a whole workspace whose run of the checker has done
its work ends with what that run reports (`Reported`).

A history in which everybody conducts himself like this and locks are given in the order of
arrival is `Lawful`. That all histories are lawful is shown elsewhere; what follows from it is
shown by going through a lawful history moment by moment. -/

namespace Overseer

/-- A world to which nothing but log records has been added. -/
def World.Logged (w w' : World) : Prop := ∃ rs : List LogRecord, w' = rs.foldl World.record w

namespace Request

/-- The first process of a check of a whole workspace, worked out from the settings in force. -/
def RunFrom (n : Nat) (s : State) (c : Call) : Prop :=
  ∃ s₀ args, s.core = s₀.core ∧ (s₀.workspace n).runArgs s₀.world = .ok args ∧
    Daemon.Given s₀ n "run" args s c

/-- The process of a check of fragments, worked out from the settings in force. -/
def DirectFrom (n : Nat) (cells : List Cell) (language : String) (s : State) (c : Call) : Prop :=
  ∃ s₀ targets args front, s.core = s₀.core ∧ Cell.targets cells language = .ok targets ∧
    (s₀.workspace n).checkerArgs s₀.world = .ok args ∧
    (s₀.workspace n).command s₀.world .direct = .ok front ∧
    Daemon.Started s₀ n (front.map .str ++
      (.str "-c" :: .str (Buffer.ofFragments targets language).text :: args)) s c

/-- The first process of a check, worked out from the settings in force. -/
def First (r : Request) (n : Nat) (s : State) (c : Call) : Prop :=
  if r.isWhole then RunFrom n s c else DirectFrom n r.cells r.language s c

/-- What a good result of a check of a whole workspace stands for: nothing if the check was
skipped, and otherwise what the last process wrote. The paths in it are resolved in the world
at the end of the check, but for the log records that are written last. -/
def WholeShown (answer : Option (Except Fault Ended)) (w : World) (r : CheckResult)
    (shown : List (DocumentKey × List Diagnostic)) : Prop :=
  (r.skipped = true → shown = []) ∧
    (r.skipped = false → ∃ ended found files, ∃ w₀ : World, answer = some (.ok ended) ∧
      r.outcome = some (RunResult.judge "run" ended).outcome ∧
      Output.parse (RunResult.judge "run" ended).stdout = .ok found ∧
      w₀.diagnosticsByFile found = .ok files ∧ w₀.Logged w ∧
      shown = files.entries.map fun e => (.file e.1, e.2))

/-- What a good result of a check of fragments stands for: nothing if the check was skipped or
no line of the fragments is code, and otherwise what the process wrote, moved to the
fragments. -/
def FragmentsShown (answer : Option (Except Fault Ended)) (q : Request) (document : String)
    (r : CheckResult) (shown : List (DocumentKey × List Diagnostic)) : Prop :=
  (r.skipped = true → shown = []) ∧
    (r.skipped = false → ∃ targets, Cell.targets q.cells q.language = .ok targets ∧
      ((Buffer.ofFragments targets q.language).map.size = 0 → shown = []) ∧
      ((Buffer.ofFragments targets q.language).map.size ≠ 0 → ∃ ended found,
        answer = some (.ok ended) ∧ r.outcome = some (RunResult.judge "-c" ended).outcome ∧
        Output.parse (RunResult.judge "-c" ended).stdout = .ok found ∧
        shown = (Rebased.group ((Buffer.ofFragments targets q.language).map.rebaseAll
          found)).entries.map fun e => (.fragment document e.1, e.2.map Diagnostic.ofFinding)))

/-- A check of fragments with nothing to check: it was skipped, or no line of the fragments is
code. -/
def Cleared (q : Request) (r : CheckResult) : Prop :=
  r.skipped = true ∨ ∃ targets, Cell.targets q.cells q.language = .ok targets ∧
    (Buffer.ofFragments targets q.language).map.size = 0

/-- A check of fragments that clears its document finds a file of that name with diagnostics. -/
def Obstructed (q : Request) (document : String) (r : CheckResult)
    (before : List (DocumentKey × List Diagnostic)) : Prop :=
  q.Cleared r ∧ ∃ e ∈ before, e.1 = .file document

/-- The number in a good result of a check that was not skipped is that of the diagnostics that are
filed afterwards, for files or for the fragments of the document. With a file in the way the
fragments are not seen to, and the number is zero. -/
structure Counts (q : Request) (r : CheckResult)
    (before after : List (DocumentKey × List Diagnostic)) : Prop where
  whole : q.isWhole = true →
    r.diagnostics = (Collection.under DocumentKey.isFile after).length
  fragments : ∀ document, q.document? = some document → ¬ q.Obstructed document r before →
    r.diagnostics = (Collection.under (DocumentKey.isFragmentOf document) after).length
  obstructed : ∀ document, q.document? = some document → q.Obstructed document r before →
    r.diagnostics = 0

/-- What lets a request about a registration end with a fault, in the state at its end: nothing
handles the faults of reading a report, of looking at the cells, of stopping a daemon but for
failures of the checker, and of killing one. -/
inductive Excuse (q : Request) (n : Nat) (answer : Option (Except Fault Ended)) (s : State)
    (e : Fault) : Prop
  /-- A number in what the last process wrote is too long. -/
  | numeral {ended : Ended} {count : Text.TooManyDigits} (hcheck : q.isCheck = true)
    (hanswer : answer = some (.ok ended)) (hparse : Output.parse ended.stdout = .error count)
    (he : e = .digits count)
  /-- A file that the last process wrote about cannot be resolved. -/
  | path {ended : Ended} {found : List Finding} {f : Finding} (hwhole : q.isWhole = true)
    (hanswer : answer = some (.ok ended)) (hparse : Output.parse ended.stdout = .ok found)
    (hf : f ∈ found) (hpath : s.world.resolve (Path.ofString f.file) = .error e)
  /-- What is in a cell is no text. -/
  | cells (hcells : Cell.targets q.cells q.language = .error e)
  /-- The daemon is to be stopped, and it cannot be told whether there is one, or the command cannot
  be given, or its process cannot be started for a reason that is none of the system's. -/
  | stop (hstop : q.isRestart = true ∨ q.isStop = true) (hreason : Daemon.Unstopped n answer s e)
  /-- The daemon is to be killed, and the command or its process fails in the same way, or the
  directories of its files cannot be made or its status file not removed. -/
  | kill (hkill : q.isKill = true)
    (hreason : Daemon.Unkilled n answer s e ∨ Daemon.Refused Handle.removeStatusFile n e s)

/-- What a request about a registration may end with: the result of a check, or a fault that is no
failure of the checker and that nothing handles. -/
inductive Answers (q : Request) (n : Nat) (answer : Option (Except Fault Ended)) (s : State) :
    Except Fault Reply → Prop
  | checked (r : CheckResult) : Answers q n answer s (.ok (.checked r))
  | escaped (e : Fault) (hfailure : Daemon.isFailure e = false)
    (hexcuse : q.Excuse n answer s e) : Answers q n answer s (.error e)

theorem answers_of_escapes {q : Request} {n : Nat} {answer : Option (Except Fault Ended)}
    {s : State} {r : Except Fault CheckResult} (hr : Daemon.Escapes (q.Excuse n answer s) r) :
    q.Answers n answer s (r.map .checked) := by
  cases r with
  | ok r => exact .checked r
  | error e => exact .escaped e (hr e rfl).1 (hr e rfl).2

end Request

namespace History

/-! ## Duties -/

/-- The task has removed a registration of a workspace. -/
def Removes (h : History) (s : State) (k : String) : Prop :=
  ∃ r ∈ h.request?, ∃ n ∈ h.subject?, r.isRemoval = true ∧ n < s.registrations.length ∧
    s.isRemoved n = true ∧ s.key n = k

instance (h : History) (s : State) (k : String) : Decidable (h.Removes s k) :=
  inferInstanceAs (Decidable (∃ r ∈ h.request?, ∃ n ∈ h.subject?, r.isRemoval = true ∧
    n < s.registrations.length ∧ s.isRemoved n = true ∧ s.key n = k))

/-- Since the task last went on, no lock has been given up but in a removal. -/
def Steady (h : History) (s : State) : Prop :=
  h.start.Onward s ∧
    ∀ k l, h.start.lockOf.get? k = some l → s.lockOf.get? k = some l ∨ h.Removes s k

/-- The task restarts a daemon inside its lock, has waited for a process there, and the
registration of the workspace that it checks has been removed. -/
def Outlives (h : History) (s : State) (k : String) : Prop :=
  ∃ q ∈ h.request?, ∃ n ∈ h.subject?, q.isRestart = true ∧ h.hasEntered = true ∧ h.calls ≠ [] ∧
    n < s.registrations.length ∧ s.isRemoved n = true ∧ s.key n = k

/-- Since the task last went on, no lock has been given up, no diagnostics have been changed, and
no collection has been made for a workspace that is not registered but by a restart. -/
structure Calm (h : History) (s : State) : Prop where
  sound : h.start.Coherent
  onward : h.start.Onward s
  locks : ∀ k l, h.start.lockOf.get? k = some l → s.lockOf.get? k = some l
  filed : ∀ k, ¬ s.Dropped k → s.filed k = h.start.filed k
  unfiled : h.start.Unfiled s
  strays : ∀ k, s.Stray k → h.start.Stray k ∨ h.Outlives s k

/-- The processes that a check has started: some to stop the daemon, if it is to be restarted,
and then one that is worked out from the settings in force. -/
def WellRun (h : History) : Prop :=
  h.hasEntered = true → ∃ r n stops, h.request? = some r ∧ h.subject? = some n ∧
    (∀ x ∈ stops, Daemon.IsStop x.1) ∧ (stops ≠ [] → r.isRestart = true) ∧
    (h.calls = stops ∨ ∃ later first, h.calls = later ++ first :: stops ∧
      r.First n first.2 first.1)

/-- A process comes from the settings of the workspace that the task is about. -/
def Sourced (h : History) (s : State) (c : Call) : Prop :=
  ∃ n ∈ h.subject?, Daemon.Sourced n h.calls s c

/-- The task may wait for a lock: it is the lock of the workspace that the task checks, and the
first lock that it waits for. -/
def MayLock (h : History) (s : State) (l : Nat) : Prop :=
  h.holding = none ∧ h.hasReached = false ∧ ∃ r n, h.request? = some r ∧ r.isCheck = true ∧
    h.subject? = some n ∧ n < s.registrations.length ∧ s.lockOf.get? (s.key n) = some l

/-- The request and the result of a check of a workspace that ended well. -/
def verdict? (h : History) (reply : Except Fault Reply) (k : String) :
    Option (Request × CheckResult) :=
  match reply, h.request? with
  | .ok (.checked r), some q => if r.ok && r.workspace == k && q.isCheck then some (q, r) else none
  | _, _ => none

/-- A workspace that the task can be held to: no registration of it has been removed, or the one
that the task is about has not. -/
def Tended (h : History) (s : State) (k : String) : Prop :=
  ¬ s.Dropped k ∨ ∃ n ∈ h.subject?, n < h.start.registrations.length ∧ s.isRemoved n = false ∧
    s.key n = k

/-- What is filed for a workspace has been changed to what the end of the task stands for. A check
of fragments that has nothing to check clears what goes by the name of its document, which is the
wrong thing if that is a file with diagnostics. -/
def Refiled (h : History) (s : State) (reply : Except Fault Reply) (k : String) : Prop :=
  match h.verdict? reply k with
  | none => s.filed k = h.start.filed k
  | some (q, r) =>
    (q.isWhole = true → ∃ new, Collection.Replaced DocumentKey.isFile (h.start.filed k) (s.filed k)
      new ∧ Request.WholeShown h.answer? s.world r new) ∧
    ∀ document, q.document? = some document →
      (q.Obstructed document r (h.start.filed k) →
        s.filed k = (h.start.filed k).filter fun e => e.1 ≠ .file document) ∧
      (¬ q.Obstructed document r (h.start.filed k) →
        ∃ new, Collection.Replaced (DocumentKey.isFragmentOf document) (h.start.filed k)
          (s.filed k) new ∧ Request.FragmentsShown h.answer? q document r new)

/-- The good result of a check that was not skipped counts what is filed for its workspace. -/
def Counted (h : History) (s : State) (reply : Except Fault Reply) (k : String) : Prop :=
  match h.verdict? reply k with
  | none => True
  | some (q, r) => r.skipped = false → q.Counts r (h.start.filed k) (s.filed k)

/-- Every diagnostic in a collection was there when the task last went on, or the task is a check
of a registration that has not been removed, and the collection is that of its workspace. -/
def Placed (h : History) (s : State) : Prop :=
  ∀ id c, s.store.at? id = some c → ∀ e ∈ c.entries.entries,
    (∃ c₀, h.start.store.at? id = some c₀ ∧ e ∈ c₀.entries.entries) ∨
      ∃ q ∈ h.request?, ∃ n ∈ h.subject?, q.isCheck = true ∧ n < s.registrations.length ∧
        s.isRemoved n = false ∧ s.store.current.get? (s.key n) = some id

/-- The good result of a check is about the workspace that the check is about. -/
def Named (h : History) (s : State) (reply : Except Fault Reply) : Prop :=
  ∀ q ∈ h.request?, q.isCheck = true → ∀ n ∈ h.subject?, ∀ r, reply = .ok (.checked r) →
    r.ok = true → r.workspace = s.key n

/-- A task that was given the number of a registration ends as it may. -/
def Answered (h : History) (s : State) (reply : Except Fault Reply) : Prop :=
  ∀ q ∈ h.request?, ∀ n ∈ q.number?, q.Answers n h.answer? s reply

/-- The processes that have come back to the task since it was given a lock, and how. -/
def dealings : History → List Dealing
  | ⟨_, .returned e, _⟩ :: ⟨_, .spawned c, s⟩ :: h => ⟨c, s, e⟩ :: dealings h
  | ⟨_, .entered _, _⟩ :: _ => []
  | _ :: h => dealings h
  | [] => []

/-- No run of the checker but one with a certain end has done its work. -/
def Latest (h : History) (ended : Ended) : Prop :=
  ∀ d ∈ h.dealings, d.call.command? = some "run" → ∀ ended', d.answer = .ok ended' →
    (RunResult.judge "run" ended').outcome.isSuccess = true → ended' = ended

/-- If a check of a whole workspace has run the checker and the run has done its work, then it was
the last process. If its report can be read and the files in it can be resolved, the check ends
with what the report says. -/
def Reported (h : History) (s : State) (reply : Except Fault Reply) : Prop :=
  ∀ q ∈ h.request?, q.isWhole = true → ∀ d ∈ h.dealings, d.call.command? = some "run" →
    ∀ ended, d.answer = .ok ended → (RunResult.judge "run" ended).outcome.isSuccess = true →
    h.answer? = some (.ok ended) ∧
      ∀ found, Output.parse (RunResult.judge "run" ended).stdout = .ok found →
      (∀ f ∈ found, ∃ p, s.world.resolve (Path.ofString f.file) = .ok p) →
      ∃ r, reply = .ok (.checked r) ∧ r.ok = true ∧ r.skipped = false ∧
        r.outcome = some (RunResult.judge "run" ended).outcome ∧ r.diagnostics = found.length

/-- The task may end with a reply. -/
structure Settled (h : History) (s : State) (reply : Except Fault Reply) : Prop where
  steady : h.Steady s
  holding : h.holding = none
  entered : h.hasReached = true → h.hasEntered = true
  named : h.Named s reply
  answered : h.Answered s reply
  refiled : ∀ k, h.Tended s k → h.Refiled s reply k
  counted : ∀ k, h.Tended s k → h.Counted s reply k
  strays : ∀ k, s.Stray k → h.start.Stray k ∨ h.Outlives s k
  placed : h.Placed s
  reported : h.Reported s reply

/-- The discipline of all operations; what an operation goes through is its story. -/
def conduct (i : TaskId) : Discipline History where
  write _ _ _ := True
  spawn h s c := h.Calm s ∧ WellRun (⟨i, .spawned c, s⟩ :: h) ∧ h.Sourced s c
  answered h s c e s₁ s₂ := ⟨i, .resumed, s₂⟩ :: ⟨i, .returned e, s₁⟩ :: ⟨i, .spawned c, s⟩ :: h
  sleep h s _ := h.Calm s
  slept h s ms s₁ := ⟨i, .resumed, s₁⟩ :: ⟨i, .slept ms, s⟩ :: h
  lock h s l := h.Calm s ∧ h.MayLock s l
  entered h s l s₁ s₂ := ⟨i, .resumed, s₂⟩ :: ⟨i, .entered l, s₁⟩ :: ⟨i, .reached l, s⟩ :: h
  unlock h s l := h.Steady s ∧ h.holding = some l
  left h s l := ⟨i, .left l, s⟩ :: h
  gather h s jobs := h.Calm s ∧ h.holding = none ∧ ∀ j ∈ jobs, j.number < s.registrations.length
  gathered h s jobs s₁ := ⟨i, .resumed, s₁⟩ :: ⟨i, .gathered jobs, s⟩ :: h

@[simp] theorem conduct_write (i : TaskId) (h : History) (s s' : State) :
    (conduct i).write h s s' ↔ True := Iff.rfl

/-! ## Keeping calm -/

variable {i : TaskId} {h h' : History} {s s' : State}

theorem Removes.later {k : String} (hr : h.Removes s k) (hs : s.Later s') : h.Removes s' k := by
  obtain ⟨r, hreq, n, hsubject, hremoval, hn, hremoved, hk⟩ := hr
  exact ⟨r, hreq, n, hsubject, hremoval, Nat.lt_of_lt_of_le hn hs.length, hs.removed n hn hremoved,
    by rw [hs.key n hn, hk]⟩

theorem Steady.trans (hh : h.Steady s) (hs : s.Onward s')
    (hlocks : ∀ k l, s.lockOf.get? k = some l → s'.lockOf.get? k = some l ∨ h.Removes s' k) :
    h.Steady s' := by
  refine ⟨hh.1.trans hs, fun k l hl => ?_⟩
  rcases hh.2 k l hl with hl' | hr
  · exact hlocks k l hl'
  · exact .inr (hr.later hs.1)

theorem Steady.core (hh : h.Steady s) (hs : s'.core = s.core) : h.Steady s' :=
  hh.trans (.of_core hs hh.1.2) fun k l hl => .inl (by rwa [State.lockOf_of_core hs])

theorem Calm.steady (hh : h.Calm s) : h.Steady s :=
  ⟨hh.onward, fun k l hl => .inl (hh.locks k l hl)⟩

theorem Outlives.later {k : String} (hk : h.Outlives s k) (hs : s.Later s') : h.Outlives s' k := by
  obtain ⟨q, hq, n, hsubject, hrestart, hentered, hcalls, hn, hremoved, hkey⟩ := hk
  exact ⟨q, hq, n, hsubject, hrestart, hentered, hcalls, Nat.lt_of_lt_of_le hn hs.length,
    hs.removed n hn hremoved, by rw [hs.key n hn, hkey]⟩

theorem Calm.gentle (hh : h.Calm s) (hs : s.Gentle s') : h.Calm s' where
  sound := hh.sound
  onward := hh.onward.trans hs.onward
  locks k l hl := hs.locks k l (hh.locks k l hl)
  filed k hk := by rw [hs.filed k hk, hh.filed k fun hd => hk (hs.onward.1.dropped hd)]
  unfiled := hh.unfiled.trans hh.onward.1 hs.unfiled
  strays k hk := (hh.strays k (hs.strays k hk)).imp_right fun ho => ho.later hs.onward.1

theorem Calm.coherent (hh : h.Calm s) : s.Coherent := hh.onward.2

theorem Calm.core (hh : h.Calm s) (hs : s'.core = s.core) : h.Calm s' :=
  hh.gentle (.of_core hs hh.coherent)

/-- Who has just gone on is calm. -/
theorem calm_resumed (hs : s.Coherent) : Calm (⟨i, .resumed, s⟩ :: h) s :=
  ⟨hs, .refl hs, fun _ _ hl => hl, fun _ _ => rfl, .refl s, fun _ hk => .inl hk⟩

/-- Asking for the collection of a workspace that is registered, or that a restart has outlived. -/
theorem Calm.withCollection (hh : h.Calm s) {k : String}
    (hk : s.registry.get? k ≠ none ∨ h.Outlives s k) : h.Calm (s.withCollection k) := by
  rcases hk with hk | hk
  · exact hh.gentle (State.gentle_withCollection hh.coherent hk)
  · have hon := State.onward_withCollection hh.coherent k
    refine ⟨hh.sound, hh.onward.trans hon, hh.locks, fun k' hk' => ?_,
      hh.unfiled.trans hh.onward.1 (State.unfiled_withCollection s k), fun k' hk' => ?_⟩
    · rw [State.filed_withCollection hh.coherent k k']
      exact hh.filed k' hk'
    · rcases State.stray_of_withCollection hk' with hstray | rfl
      · exact (hh.strays k' hstray).imp_right fun ho => ho.later hon.1
      · exact .inr (hk.later hon.1)

theorem Calm.filed_of_tended (hh : h.Calm s) {k : String} (hk : h.Tended s k) :
    s.filed k = h.start.filed k := by
  rcases hk with hk | ⟨n, -, hn, hr, rfl⟩
  · exact hh.filed k hk
  · exact hh.unfiled.filed hh.sound hh.onward hn hr

/-- Whose registration has not been removed was held to its workspace before. -/
theorem Tended.earlier {k : String} (hk : h.Tended s' k) (hon : h.start.Onward s)
    (hs : s.Later s') : h.Tended s k := by
  rcases hk with hk | ⟨n, hsubject, hn, hr, rfl⟩
  · exact .inl fun hd => hk (hs.dropped hd)
  · have hn' := Nat.lt_of_lt_of_le hn hon.1.length
    exact .inr ⟨n, hsubject, hn, hs.not_removed hn' hr, (hs.key n hn').symm⟩

/-- Whoever is about a registration that is still in force is held to its workspace. -/
theorem tended_of_registered {n : Nat} (hs : s.Coherent) (hsubject : h.subject? = some n)
    (hn : n < h.start.registrations.length) (hregistered : s.registry.get? (s.key n) = some n) :
    h.Tended s (s.key n) :=
  .inr ⟨n, hsubject, hn, (hs.registered _ n hregistered).2.2, rfl⟩

/-- What is in a collection was there when the task last went on. -/
theorem Calm.exists_entry (hh : h.Calm s) {id : Nat} {c : Collection}
    (hc : s.store.at? id = some c) {e : DocumentKey × List Diagnostic}
    (he : e ∈ c.entries.entries) :
    ∃ c₀, h.start.store.at? id = some c₀ ∧ e ∈ c₀.entries.entries := by
  rcases hh.unfiled id c hc with hsame | ⟨hempty, -⟩
  · exact ⟨c, hsame, he⟩
  · rw [hempty] at he
    exact absurd he (by simp)

/-! ## Reports -/

theorem mem_calls_of_mem_dealings {d : Dealing} (hd : d ∈ h.dealings) :
    (d.call, d.state) ∈ h.calls := by
  fun_induction dealings h with
  | case1 who e s₁ who' c s h ih =>
    show (d.call, d.state) ∈ (c, s) :: calls h
    rcases List.mem_cons.1 hd with rfl | hd
    · exact List.mem_cons_self
    · exact List.mem_cons_of_mem _ (ih hd)
  | case2 => exact absurd hd (by simp)
  | case3 m h _ hentered ih =>
    obtain ⟨who, what, s⟩ := m
    cases what with
    | entered l => exact absurd rfl (hentered who l s)
    | spawned c => exact List.mem_cons_of_mem _ (ih hd)
    | _ => exact ih hd
  | case4 => exact absurd hd (by simp)

/-- A check that has not run the checker, or only in vain, may end with anything. -/
theorem reported_of_vain {reply : Except Fault Reply} (hvain : ∀ d ∈ h.dealings, Daemon.Vain d) :
    h.Reported s reply := by
  intro _ _ _ d hd hrun ended hanswer hsuccess
  rw [hvain d hd hrun ended hanswer] at hsuccess
  exact absurd hsuccess (by simp)

theorem latest_cons {d : Dealing} {ds : List Dealing} {ended : Ended} (hh : h.dealings = d :: ds)
    (hd : d.answer = .ok ended) (hvain : ∀ d ∈ ds, Daemon.Vain d) : h.Latest ended := by
  intro d' hd' hrun ended' hanswer hsuccess
  rw [hh] at hd'
  rcases List.mem_cons.1 hd' with rfl | hd'
  · exact Except.ok.inj (hanswer.symm.trans hd)
  · rw [hvain d' hd' hrun ended' hanswer] at hsuccess
    exact absurd hsuccess (by simp)

theorem reported_of_not_whole {q : Request} {reply : Except Fault Reply} (hq : h.request? = some q)
    (hwhole : q.isWhole = false) : h.Reported s reply := by
  intro q' hq' hwhole'
  obtain rfl : q = q' := Option.some.inj (hq.symm.trans hq')
  exact absurd (hwhole.symm.trans hwhole') (by simp)

/-! ## Calls of the checker in a story -/

/-- A story has gone on with dealings with child processes, and nothing else. -/
structure Extends (h : History) (ds : List Dealing) (h' : History) : Prop where
  request : h'.request? = h.request?
  began : h.began?.isSome = true → h'.began? = h.began?
  holding : h'.holding = h.holding
  reached : h'.hasReached = h.hasReached
  entered : h'.hasEntered = h.hasEntered
  calls : h'.calls = (ds.map fun d => (d.call, d.state)) ++ h.calls
  dealings : h'.dealings = ds ++ h.dealings
  answer : h'.answer? = (Daemon.lastAnswer? ds).or h.answer?

theorem Extends.refl (h : History) : h.Extends [] h :=
  ⟨rfl, fun _ => rfl, rfl, rfl, rfl, rfl, rfl, rfl⟩

theorem Extends.answered {ds : List Dealing} (hh : h.Extends ds h') (c : Call)
    (e : Except Fault Ended) (s₁ s₂ : State) :
    h.Extends (⟨c, s, e⟩ :: ds)
      (⟨i, .resumed, s₂⟩ :: ⟨i, .returned e, s₁⟩ :: ⟨i, .spawned c, s⟩ :: h') where
  request := hh.request
  began hb := by
    have hsome := hh.began hb
    obtain ⟨s₀, hs₀⟩ := Option.isSome_iff_exists.1 hb
    rw [hs₀] at hsome ⊢
    simp [began?, hsome]
  holding := hh.holding
  reached := by simpa [hasReached] using hh.reached
  entered := by simpa [hasEntered] using hh.entered
  calls := by simp [History.calls, hh.calls]
  dealings := congrArg (_ :: ·) hh.dealings
  answer := rfl

theorem Extends.slept {ds : List Dealing} (hh : h.Extends ds h') (ms : Int) (s₁ : State) :
    h.Extends ds (⟨i, .resumed, s₁⟩ :: ⟨i, .slept ms, s⟩ :: h') where
  request := hh.request
  began hb := by
    have hsome := hh.began hb
    obtain ⟨s₀, hs₀⟩ := Option.isSome_iff_exists.1 hb
    rw [hs₀] at hsome ⊢
    simp [began?, hsome]
  holding := hh.holding
  reached := by simpa [hasReached] using hh.reached
  entered := by simpa [hasEntered] using hh.entered
  calls := hh.calls
  dealings := hh.dealings
  answer := hh.answer

theorem Extends.subject {ds : List Dealing} (hh : h.Extends ds h') (hb : h.began?.isSome = true) :
    h'.subject? = h.subject? := by
  rw [subject?, hh.request, hh.began hb, subject?]

theorem Extends.raised {ds : List Dealing} {e : Fault} (hh : h.Extends ds h')
    (he : Daemon.Raised e (Daemon.lastAnswer? ds)) : Daemon.Raised e h'.answer? :=
  ⟨by rw [hh.answer, he.1, Option.some_or], he.2⟩

theorem Extends.unstopped {ds : List Dealing} {n : Nat} {e : Fault} (hh : h.Extends ds h')
    (he : Daemon.Unstopped n (Daemon.lastAnswer? ds) s e) : Daemon.Unstopped n h'.answer? s e :=
  he.imp_right fun he => he.imp_left hh.raised

theorem Extends.sourced {ds : List Dealing} {n : Nat} {c : Call} (hh : h.Extends ds h')
    (hb : h.began?.isSome = true) (hn : h.subject? = some n) (hc : Daemon.sourcedRule n ds s c) :
    h'.Sourced s c := by
  refine ⟨n, (hh.subject hb).trans hn, hc.mono ?_⟩
  rw [hh.calls]
  exact List.subset_append_left _ _

/-- What calls of the checker keep to by themselves they keep to inside an operation. -/
theorem keeps_of_calls {α : Type} {p : Op α} {rule : List Dealing → State → Call → Prop}
    {Q : Except Fault α → List Dealing → State → Prop} (hp : p.Keeps (Daemon.calls rule) Q [] s)
    (hcalm : h.Calm s)
    (hrule : ∀ ds h' s' c, h.Extends ds h' → Daemon.Ruled rule ds → rule ds s' c →
      WellRun (⟨i, .spawned c, s'⟩ :: h') ∧ h'.Sourced s' c) :
    p.Keeps (conduct i)
      (fun r h' s' => ∃ ds, (h.Extends ds h' ∧ Daemon.Ruled rule ds ∧ s.Onward s' ∧ h'.Calm s' ∧
        (ds = [] → s'.core = s.core)) ∧ Q r ds s') h s := by
  rw [Op.keeps_iff_run] at hp ⊢
  refine Prog.Keeps.transfer ?_ ?_ ?_ ?_ ?_ ?_ hp
    ⟨Extends.refl h, trivial, State.Onward.refl hcalm.coherent, hcalm, fun _ => rfl⟩
  · intro ds h' s₁ s₂ hR hcore
    obtain ⟨hext, hruled, hon, hcalm, hsame⟩ := hR
    exact ⟨trivial, hext, hruled, hon.trans (.of_core hcore hcalm.coherent), hcalm.core hcore,
      fun hds => Eq.trans hcore (hsame hds)⟩
  · intro ds h' s' c hR hduty
    obtain ⟨hext, hruled, hon, hcalm, -⟩ := hR
    refine ⟨⟨hcalm, hrule ds h' s' c hext hruled hduty⟩, fun e s₁ s₂ h₁ h₂ => ?_⟩
    exact ⟨hext.answered c e s₁ s₂, ⟨hduty, hruled⟩, (hon.trans h₁).trans h₂, calm_resumed h₂.2,
      fun hds => absurd hds (by simp)⟩
  · intro ds h' s' ms hR hmade
    obtain ⟨hext, hruled, hon, hcalm, -⟩ := hR
    refine ⟨hcalm, fun s₁ h₁ => ?_⟩
    exact ⟨hext.slept ms s₁, hruled, hon.trans h₁, calm_resumed h₁.2, fun hds => absurd hds hmade⟩
  · exact fun ds h' s l hR hduty => absurd hduty id
  · exact fun ds h' s l hR hduty => absurd hduty id
  · exact fun ds h' s jobs hR hduty => absurd hduty id

/-! ## Lawful histories -/

/-- The histories in which everybody conducts himself well, with the state at the last wait.
Whoever does something that others can notice has gone on in that state. -/
inductive Lawful (s₀ : State) : State → History → Prop
  | nil : Lawful s₀ s₀ []
  | asked {b : State} {h : History} (i : TaskId) (r : Request) (hb : Lawful s₀ b h)
    (hnew : h.story i = []) (hknown : r.isKnown b = true) : Lawful s₀ b (⟨i, .asked r, b⟩ :: h)
  | resumed {b : State} {h : History} (i : TaskId) (hb : Lawful s₀ b h) :
    Lawful s₀ b (⟨i, .resumed, b⟩ :: h)
  | spawned {b s : State} {h : History} (i : TaskId) (c : Call) (hb : Lawful s₀ b h)
    (hstart : (h.story i).start = b) (hduty : (conduct i).spawn (h.story i) s c) :
    Lawful s₀ s (⟨i, .spawned c, s⟩ :: h)
  | outside {b s : State} {h : History} (hb : Lawful s₀ b h) (hworld : s.core = b.core) :
    Lawful s₀ s h
  | returned {b s : State} {h : History} (i : TaskId) (e : Except Fault Ended)
    (hb : Lawful s₀ b h) (hworld : s.core = b.core) : Lawful s₀ s (⟨i, .returned e, s⟩ :: h)
  | slept {b s : State} {h : History} (i : TaskId) (ms : Int) (hb : Lawful s₀ b h)
    (hstart : (h.story i).start = b) (hduty : (conduct i).sleep (h.story i) s ms) :
    Lawful s₀ s (⟨i, .slept ms, s⟩ :: h)
  | reached {b s : State} {h : History} (i : TaskId) (l : Nat) (hb : Lawful s₀ b h)
    (hstart : (h.story i).start = b) (hduty : (conduct i).lock (h.story i) s l) :
    Lawful s₀ s (⟨i, .reached l, s⟩ :: h)
  | entered {b s : State} {h : History} (i : TaskId) (l : Nat) (hb : Lawful s₀ b h)
    (hon : b.Onward s) (hfree : ∀ j, (h.story j).holding ≠ some l)
    (hfirst : ∃ later, h.arrivals l = later ++ i :: h.entries l) :
    Lawful s₀ b (⟨i, .entered l, s⟩ :: h)
  | left {b s : State} {h : History} (i : TaskId) (l : Nat) (hb : Lawful s₀ b h)
    (hstart : (h.story i).start = b) (hduty : (conduct i).unlock (h.story i) s l) :
    Lawful s₀ b (⟨i, .left l, s⟩ :: h)
  | gathered {b s : State} {h : History} (i : TaskId) (jobs : List Job) (hb : Lawful s₀ b h)
    (hstart : (h.story i).start = b) (hduty : (conduct i).gather (h.story i) s jobs) :
    Lawful s₀ s (⟨i, .gathered jobs, s⟩ :: h)
  | ended {b s : State} {h : History} (i : TaskId) (r : Except Fault Reply) (hb : Lawful s₀ b h)
    (hstart : (h.story i).start = b) (hduty : (h.story i).Settled s r) :
    Lawful s₀ s (⟨i, .ended r, s⟩ :: h)

end History

end Overseer
