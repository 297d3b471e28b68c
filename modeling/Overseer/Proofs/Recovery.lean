import Overseer.Proofs.Attempts

set_option autoImplicit false

/-! # One recovery and one retry

A daemon command has at most three parts: a first attempt, a recovery and a second attempt
(`Daemon.Course`). The recovery is made if and only if the command may be retried and its process
found the daemon stuck; it tries to kill the daemon, which has no recovery of its own, and removes
the status file if and only if that fails as a failure of the checker; the second attempt is made
if and only if the recovery raised nothing, and whatever comes last is the result
(`run_takes_course`).

An attempt may end before a process is started, because its directory or environment cannot be
worked out. As long as nobody else interferes, the second attempt starts one: between the two the
program has only written to its log and perhaps removed the status file. -/

namespace Overseer

/-! ## Removing the status file -/

/-- What others see of removing a file: the place, if something stood there. -/
def Deed.ofRemoval : Except Fault (Option Files.Location) → List Deed
  | .ok (some place) => [.lost [place]]
  | _ => []

namespace Handle

/-- What removing the status file comes to: the place that gets empty, or nothing if nothing
stands there, or a fault. -/
def removal (h : Handle) (w : World) : Except Fault (Option Files.Location) :=
  match Files.lstat w.files w.cwd h.statusFile.text with
  | .ok (place, node) =>
    if w.files.isFixed place then .error (.files .denied h.statusFile.text)
    else if node = .directory then .error (.files .isADirectory h.statusFile.text)
    else .ok (some place)
  | .error .notFound => .ok none
  | .error refusal => .error (.files refusal h.statusFile.text)

/-- The place of a file or link gets empty; the note about it empties no place. -/
theorem ofWrite_removed {s : State} {place : Files.Location} {node : Files.Node}
    (hat : s.world.files.at? place = some node) (hnode : node ≠ .directory) (r : LogRecord) :
    Deed.ofWrite s { s with
      world := { s.world with files := s.world.files.remove place }.record r } =
      [.lost [place]] := by
  have hlogged := World.appended_record { s.world with files := s.world.files.remove place } r
  rw [Deed.ofWrite, Files.Tree.lost_congr hlogged.longer hlogged.shorter,
    Files.Tree.lost_remove hat hnode]

/-- What removing the status file does: unless it is refused, the file is missing then. -/
theorem exec_removeStatusFile (h : Handle) (s : State) :
    ∃ w, h.removeStatusFile.exec s.world = ((h.removal s.world).map Option.isSome, w) ∧
      s.world.Worn w ∧
      Deed.ofWrite s { s with world := w } = Deed.ofRemoval (h.removal s.world) ∧
      ∀ removed, h.removal s.world = .ok removed → h.FileGone w := by
  have hworn : s.world.Worn s.world := (World.Appended.refl s.world).worn
  have hnothing : Deed.ofWrite s { s with world := s.world } = [] :=
    Deed.ofWrite_eq_nil (Files.Tree.within_refl s.world.files fun _ => rfl)
  rw [removeStatusFile, Daemon.exec_bind, Act.exec_get]
  unfold removal Files.unlink
  dsimp only
  cases hlstat : Files.lstat s.world.files s.world.cwd h.statusFile.text with
  | error refusal =>
    cases refusal with
    | notFound => exact ⟨s.world, rfl, hworn, hnothing, fun _ _ => hlstat⟩
    | _ => exact ⟨s.world, rfl, hworn, hnothing, fun _ hok => absurd hok (by simp)⟩
  | ok found =>
    obtain ⟨place, node⟩ := found
    dsimp only
    by_cases hfixed : s.world.files.isFixed place = true
    · simp only [if_pos hfixed]
      exact ⟨s.world, rfl, hworn, hnothing, fun _ hok => absurd hok (by simp)⟩
    simp only [if_neg hfixed]
    by_cases hnode : node = .directory
    · simp only [if_pos hnode]
      exact ⟨s.world, rfl, hworn, hnothing, fun _ hok => absurd hok (by simp)⟩
    simp only [if_neg hnode]
    have hat := Files.at?_of_lstat hlstat hnode
    have hremoved := World.worn_remove s.world place
    have hgone : h.FileGone { s.world with files := s.world.files.remove place } :=
      Files.lstat_removed hremoved.shorter hlstat hnode (Files.Tree.at?_remove_self hat hnode)
    have hnoted := (World.appended_record { s.world with files := s.world.files.remove place }
      ⟨.info, .handle, "Removed status file " ++ h.statusFile.text⟩).worn
    exact ⟨_, rfl, hremoved.trans hnoted, ofWrite_removed hat hnode _,
      fun _ _ => hgone.worn hnoted rfl⟩

end Handle

namespace Daemon

open Op

variable {children : Children} {ds : List Deed} {s s' : State} {n id : Nat}

/-! ## Killing -/

/-- How killing comes out: a failure of the checker counts as not killed. -/
def killResult : Except Fault RunResult → Except Fault Bool
  | .ok _ => .ok true
  | .error e => if isFailure e then .ok false else .error e

/-- An attempt to kill the daemon. -/
def Killing (n : Nat) (t : Try) : Prop :=
  ∃ argv, t.Of "kill" argv ∧ (t.process ≠ none → ∃ s, IsLine s n "kill" [] argv)

/-- Killing is one attempt, and no more. -/
theorem plays_kill :
    (kill n).Plays children (fun r ds' s' => ∃ t, Killing n t ∧ r = killResult t.result ∧
      ds' = ds ++ t.deeds ∧ (children.Quiet → Prepared s n → s.Kept s')) ds s := by
  -- a fault that is a failure of the checker is only noted
  have herror : ∀ e t ds' s', Killing n t → .error e = t.result → ds' = ds ++ t.deeds →
      (children.Quiet → Prepared s n → s.Kept s') →
      (if isFailure e then do
          let ws ← Op.workspace n
          log .warning .adapter s!"Failed to kill daemon for {ws.root.text}: {e.message}"
          return false
        else throw e : Op Bool).Plays children (fun r ds' s' => ∃ t, Killing n t ∧
        r = killResult t.result ∧ ds' = ds ++ t.deeds ∧
        (children.Quiet → Prepared s n → s.Kept s')) ds' s' := by
    intro e t ds' s' ht hresult hds hs
    split
    · next hfailure =>
      simp only [plays_bind, plays_workspace, then_ok, plays_log, plays_pure]
      exact ⟨t, ht, by simp [killResult, ← hresult, hfailure], hds, fun hquiet h =>
        (hs hquiet h).trans (State.kept_record s' _)⟩
    · next hfailure =>
      rw [plays_throw]
      exact ⟨t, ht, by simp [killResult, ← hresult, hfailure], hds, hs⟩
  have hfailed : ∀ e, Killing n (.failed e) := fun e =>
    ⟨[], Try.of_failed "kill" e, fun h => absurd rfl h⟩
  rw [kill]
  simp only [plays_bind]
  refine plays_handle (fun id s₁ hfound => ?_) fun e hunhandled hnone => ?_
  · simp only [then_ok, plays_bind, Op.plays_attempt]
    have hsame : Prepared s n → s₁ = s := by
      rintro ⟨id', hfits, _⟩
      exact hfound.same id' hfits
    have hprepared : Prepared s n → Prepared s₁ n := fun h => (hsame h).symm ▸ h
    refine plays_give (fun e s' hs' => ?_) fun id' argv s' hline _ hs' => ?_
    · refine herror e (.failed e) ds s' (hfailed e) rfl (by simp) fun _ h => ?_
      rw [hs' (hprepared h), hsame h]
      exact .refl s
    · show (Daemon.attempt n id' argv "kill").run.Plays children _ ds s'
      rw [← plays_iff_run]
      refine plays_attempt.mono fun r ds' s'' h => ?_
      obtain ⟨t, ht, hds⟩ := h
      have hkilling : Killing n t := ⟨argv, ht.attempt, fun _ => ⟨s₁, hline⟩⟩
      have hkept : children.Quiet → Prepared s n → s.Kept s'' := by
        intro hquiet h
        have hs'' := ht.kept hquiet
        rwa [hs' (hprepared h), hsame h] at hs''
      cases r with
      | ok result =>
        simp only [plays_bind, plays_setStarted, then_ok, plays_pure]
        exact ⟨t, hkilling, by simp [killResult, ← ht.result], hds, fun hquiet h =>
          (hkept hquiet h).trans (State.kept_setStarted s'' id false)⟩
      | error e => exact herror e t ds' s'' hkilling ht.result hds hkept
  · refine (then_error _ _ _).2 ⟨.failed e, hfailed e, ?_, by simp, fun _ _ => .refl s⟩
    simp [killResult, Try.failed, isFailure_of_unhandled hunhandled]

/-! ## Recovery -/

theorem plays_removeStatusFile {Q : Except Fault Bool → List Deed → State → Prop}
    (hQ : ∀ s', s.Worn s' → Q (((s.handle id).removal s.world).map Option.isSome)
      (ds ++ Deed.ofRemoval ((s.handle id).removal s.world)) s') :
    (withHandle id Handle.removeStatusFile).Plays children Q ds s := by
  obtain ⟨w, hexec, hworn, hdeed, -⟩ := (s.handle id).exec_removeStatusFile s
  simp only [withHandle, plays_bind, plays_state, then_ok, plays_act, hexec, hdeed]
  exact hQ _ ⟨rfl, hworn⟩

/-- A recovery: the attempt to kill the daemon, and what removing the status file came to if it
was tried. -/
structure Recovery where
  kill : Try
  removal : Option (Except Fault (Option Files.Location))

namespace Recovery

/-- What others see of a recovery. -/
def deeds (q : Recovery) : List Deed :=
  q.kill.deeds ++ q.removal.elim [] Deed.ofRemoval

/-- How a recovery comes out. -/
def result (q : Recovery) : Except Fault Unit :=
  match q.removal with
  | some removed => removed.map fun _ => ()
  | none => q.kill.result.map fun _ => ()

/-- The removal is tried if and only if killing fails as a failure of the checker. -/
structure Of (n : Nat) (q : Recovery) : Prop where
  kill : Killing n q.kill
  removal : q.removal ≠ none ↔ ∃ e, q.kill.result = .error e ∧ isFailure e = true

/-- What was removed, if anything, is the status file of the handle on file, after nothing but
log entries. -/
def Removes (n : Nat) (s : State) (q : Recovery) : Prop :=
  ∀ removed ∈ q.removal, ∃ s' id, s.Kept s' ∧ Fits s' n id ∧
    removed = (s'.handle id).removal s'.world

theorem Removes.before {q : Recovery} {s₁ : State} (hs : s.Kept s₁) (h : q.Removes n s₁) :
    q.Removes n s := by
  intro removed hremoved
  obtain ⟨s', id, hs', hfits, heq⟩ := h removed hremoved
  exact ⟨s', id, hs.trans hs', hfits, heq⟩

end Recovery

/-- How a recovery that begins in one state and ends in another is told. -/
structure Recovered (children : Children) (n : Nat) (s : State) (r : Except Fault Unit)
    (q : Recovery) (s' : State) : Prop where
  recovery : q.Of n
  result : r = q.result
  worn : children.Quiet → Prepared s n → s.Worn s' ∧ q.Removes n s

theorem plays_recoverStuck :
    (recoverStuck n).Plays children (fun r ds' s' => ∃ q, Recovered children n s r q s' ∧
      ds' = ds ++ q.deeds) ds s := by
  rw [recoverStuck]
  simp only [plays_bind, plays_workspace, then_ok, plays_log]
  generalize hs₁ : s.record _ = s₁
  have hlogged : s.Kept s₁ := hs₁ ▸ State.kept_record s _
  refine plays_kill.mono fun r ds' s₂ h => ?_
  obtain ⟨t, ht, rfl, hds, hkilled⟩ := h
  have hkept : children.Quiet → Prepared s n → s.Kept s₂ := fun hquiet h =>
    hlogged.trans (hkilled hquiet (h.kept hlogged))
  have huntried : children.Quiet → Prepared s n → s.Worn s₂ ∧ (⟨t, none⟩ : Recovery).Removes n s :=
    fun hquiet h => ⟨(hkept hquiet h).worn, by simp [Recovery.Removes]⟩
  cases hresult : t.result with
  | ok result =>
    simp only [killResult, then_ok, Bool.not_true, Bool.false_eq_true, if_false, plays_pure]
    exact ⟨⟨t, none⟩, ⟨⟨ht, by simp [hresult]⟩,
      by simp [Recovery.result, hresult, Except.map], huntried⟩, by simp [Recovery.deeds, hds]⟩
  | error e =>
    by_cases hfailure : isFailure e = true
    · simp only [killResult, hfailure, if_true, then_ok, Bool.not_false, plays_bind]
      have htried : ∀ removed, (⟨t, some removed⟩ : Recovery).Of n := fun removed =>
        ⟨ht, by simp [hresult, hfailure]⟩
      refine plays_handle (fun id s₃ hfound => ?_) fun e' _ hnone => ?_
      · simp only [then_ok, plays_bind]
        refine plays_removeStatusFile fun s₄ hs₄ => ?_
        have hremoves : children.Quiet → Prepared s n → s.Worn s₄ ∧
            Recovery.Removes n s ⟨t, some ((s₃.handle id).removal s₃.world)⟩ := by
          intro hquiet h
          -- the handle is still on file, so that the one found is the one used all along
          obtain ⟨id', hfits, _⟩ := h.kept (hkept hquiet h)
          obtain rfl := hfound.same id' hfits
          refine ⟨(hkept hquiet h).worn.trans hs₄, ?_⟩
          rintro _ ⟨⟩
          exact ⟨s₃, id, hkept hquiet h, hfound.fits, rfl⟩
        generalize (s₃.handle id).removal s₃.world = removed at hremoves
        cases removed with
        | error e' =>
          exact (then_error _ _ _).2 ⟨⟨t, some (.error e')⟩, ⟨htried _, rfl, hremoves⟩,
            by simp [Recovery.deeds, hds]⟩
        | ok place =>
          simp only [Except.map, then_ok, plays_setStarted]
          refine ⟨⟨t, some (.ok place)⟩, ⟨htried _, rfl, fun hquiet h =>
            ⟨?_, (hremoves hquiet h).2⟩⟩, by simp [Recovery.deeds, hds]⟩
          exact (hremoves hquiet h).1.trans (State.kept_setStarted s₄ id false).worn
      · refine (then_error _ _ _).2 ⟨⟨t, some (.error e')⟩, ⟨htried _, rfl, fun hquiet h => ?_⟩,
          by simp [Recovery.deeds, Deed.ofRemoval, hds]⟩
        obtain ⟨id, hfits, _⟩ := h.kept (hkept hquiet h)
        exact absurd hfits (hnone id)
    · simp only [killResult, hfailure, Bool.false_eq_true, if_false, then_error]
      exact ⟨⟨t, none⟩, ⟨⟨ht, by simp [hresult, hfailure]⟩,
        by simp [Recovery.result, hresult, Except.map], huntried⟩, by simp [Recovery.deeds, hds]⟩

/-- Between two attempts there is a recovery; the note and the pause around it do not matter. -/
theorem plays_between {bound delay : Int} {number : Nat} {e : Fault} :
    (between (some fun _ => recoverStuck n) bound delay number e).Plays children
      (fun r ds' s' => ∃ q, Recovered children n s r q s' ∧ ds' = ds ++ q.deeds) ds s := by
  rw [between, Retry.pause]
  simp only [Option.map_some, Prog.plays_seq, ← plays_iff_run, plays_log, Prog.plays_return]
  have hlogged := State.kept_record s ⟨.info, .retry, Retry.note number bound e⟩
  refine plays_recoverStuck.mono fun r ds' s₁ h => ?_
  obtain ⟨q, hq, hds⟩ := h
  have hsame : ∀ s', (children.Quiet → s₁.Kept s') → Recovered children n s r q s' := by
    intro s' hs'
    refine ⟨hq.recovery, hq.result, fun hquiet h => ?_⟩
    obtain ⟨hworn, hremoves⟩ := hq.worn hquiet (h.kept hlogged)
    exact ⟨(hlogged.worn.trans hworn).trans (hs' hquiet).worn, hremoves.before hlogged⟩
  cases r with
  | error e' => exact (Prog.plays_return _ _).2 ⟨q, hsame s₁ fun _ => .refl s₁, hds⟩
  | ok u =>
    dsimp only
    split
    · simp only [Prog.plays_seq, ← plays_iff_run, plays_sleep, Prog.plays_return]
      refine ⟨q, hsame _ fun hquiet => ?_, hds⟩
      rw [hquiet.pause]
      exact ⟨rfl, World.Appended.refl s₁.world, rfl, fun _ => ⟨rfl, rfl⟩⟩
    · exact (Prog.plays_return _ _).2 ⟨q, hsame s₁ fun _ => .refl s₁, hds⟩

/-! ## The whole course -/

/-- The course of a daemon command. -/
structure Course where
  first : Try
  recovery : Option Recovery
  second : Option Try

namespace Course

/-- What others see of a course. -/
def deeds (c : Course) : List Deed :=
  c.first.deeds ++ c.recovery.elim [] Recovery.deeds ++ c.second.elim [] Try.deeds

/-- The last attempt at the command. -/
def last (c : Course) : Try := c.second.getD c.first

/-- How a course comes out: as the last attempt does, unless the recovery stops with a fault. -/
def result (c : Course) : Except Fault RunResult :=
  match c.recovery with
  | some q => q.result.bind fun _ => c.last.result
  | none => c.last.result

/-- A course of a command that is given in a state: there is a recovery if and only if the command
is to be retried and its process found the daemon stuck, and a second attempt, with the same
command line, if and only if the recovery went well. -/
structure Of (s : State) (n : Nat) (command : String) (args : List Json) (retryOnStuck : Bool)
    (c : Course) : Prop where
  line : ∃ argv, c.first.Of command argv ∧ (∀ t ∈ c.second, t.Of command argv) ∧
    (c.first.process ≠ none → IsLine s n command args argv)
  recovery : c.recovery ≠ none ↔
    (retryOnStuck = true ∧ command ∈ s.daemons.retryCommands) ∧ c.first.Stuck command
  recovered : ∀ q ∈ c.recovery, q.Of n
  second : c.second ≠ none ↔ ∃ q ∈ c.recovery, q.result = .ok ()

/-- Nobody else interferes: the status file that a recovery removes is the one in use when the
first process was started, and a second attempt starts a process. -/
structure Undisturbed (n : Nat) (c : Course) : Prop where
  removes : ∀ d ∈ c.first.process, ∀ q ∈ c.recovery, q.Removes n d.state
  repeats : ∀ t ∈ c.second, t.process ≠ none

/-- How a course of a command that was given in a state is told. -/
structure Told (children : Children) (s : State) (n : Nat) (command : String) (args : List Json)
    (retryOnStuck : Bool) (r : Except Fault RunResult) (c : Course) : Prop where
  course : c.Of s n command args retryOnStuck
  result : r = c.result
  undisturbed : children.Quiet → c.Undisturbed n

/-- A course that ends with the first attempt. -/
theorem told_first {command : String} {args argv : List Json} {retryOnStuck : Bool} {t : Try}
    (ht : t.Of command argv) (hline : t.process ≠ none → IsLine s n command args argv)
    (hnot : ¬ ((retryOnStuck = true ∧ command ∈ s.daemons.retryCommands) ∧ t.Stuck command)) :
    Told children s n command args retryOnStuck t.result ⟨t, none, none⟩ :=
  ⟨⟨⟨argv, ht, by simp, hline⟩, by simp [hnot], by simp, by simp⟩, rfl, fun _ =>
    ⟨by simp, by simp⟩⟩

/-- A course that goes on after the first attempt. -/
theorem of_stuck {command : String} {args argv : List Json} {retryOnStuck : Bool} {t : Try}
    {q : Recovery} {second : Option Try}
    (hretried : retryOnStuck = true ∧ command ∈ s.daemons.retryCommands)
    (hline : IsLine s n command args argv) (ht : t.Of command argv) (hstuck : t.Stuck command)
    (hq : q.Of n) (hsecond : second ≠ none ↔ q.result = .ok ())
    (ht' : ∀ t' ∈ second, t'.Of command argv) :
    Of s n command args retryOnStuck ⟨t, some q, second⟩ where
  line := ⟨argv, ht, ht', fun _ => hline⟩
  recovery := by simp [hretried, hstuck]
  recovered := by simpa using hq
  second := by simpa using hsecond

end Course

/-- A command whose process found the daemon stuck and that is to be retried: a recovery follows,
and if that goes well another attempt. -/
theorem plays_retry {command : String} {args argv : List Json} {bound delay : Int} {number : Nat}
    {e : Fault} {s₁ : State} {t : Try} {retryOnStuck : Bool}
    (hretried : retryOnStuck = true ∧ command ∈ s.daemons.retryCommands)
    (hline : IsLine s n command args argv) (hprepared : Prepared s' n)
    (ht : Attempted children n command argv s' (.error e) t s₁) (hstuck : isStuck e = true) :
    (do match ← between (some fun _ => recoverStuck n) bound delay number e with
        | .ok () => (Daemon.attempt n id argv command).run
        | .error e => return .error e : Prog (Except Fault RunResult)).Plays children
      (fun r ds' _ => ∃ c, Course.Told children s n command args retryOnStuck r c ∧
        ds' = ds ++ c.deeds) (ds ++ t.deeds) s₁ := by
  have hfirst : t.Stuck command := ht.stuck.2 ⟨e, rfl, hstuck⟩
  rw [Prog.plays_seq]
  refine plays_between.mono fun r ds₂ s₂ h => ?_
  obtain ⟨q, hq, rfl⟩ := h
  have hworn : children.Quiet → s₁.Worn s₂ ∧ q.Removes n s₁ := fun hquiet =>
    hq.worn hquiet (hprepared.kept (ht.kept hquiet))
  have hremoves : children.Quiet → ∀ d ∈ t.process, ∀ q' ∈ some q, q'.Removes n d.state := by
    rintro hquiet d hd _ ⟨⟩
    exact (hworn hquiet).2.before (ht.since hquiet d hd)
  cases r with
  | error e' =>
    have hcourse : Course.Of s n command args retryOnStuck ⟨t, some q, none⟩ :=
      Course.of_stuck hretried hline ht.attempt hfirst hq.recovery (by simp [← hq.result]) (by simp)
    refine (Prog.plays_return _ _).2 ⟨_, ⟨hcourse, ?_, fun hquiet => ?_⟩, by simp [Course.deeds]⟩
    · simp [Course.result, ← hq.result, Except.bind]
    · exact ⟨hremoves hquiet, by simp⟩
  | ok u =>
    dsimp only
    rw [← plays_iff_run]
    refine plays_attempt.mono fun r ds₃ s₃ h => ?_
    obtain ⟨t', ht', rfl⟩ := h
    have hcourse : Course.Of s n command args retryOnStuck ⟨t, some q, some t'⟩ :=
      Course.of_stuck hretried hline ht.attempt hfirst hq.recovery (by simp [← hq.result])
        (by simpa using ht'.attempt)
    refine ⟨_, ⟨hcourse, ?_, fun hquiet => ⟨hremoves hquiet, ?_⟩⟩, by simp [Course.deeds]⟩
    · simp [Course.result, Course.last, ← hq.result, Except.bind, ht'.result]
    · -- what could be worked out for the first attempt can still be worked out
      rintro _ ⟨⟩
      obtain ⟨d, hd, -⟩ := hfirst
      have hready : Ready s' n argv := ht.started.1 (by simp [Option.mem_def.1 hd])
      exact ht'.started.2 (hready.worn ((ht.kept hquiet).worn.trans (hworn hquiet).1))

theorem plays_run (children : Children) (ds : List Deed) (s : State) (n : Nat) (command : String)
    (args : List Json) (retryOnStuck : Bool) :
    (run n command args retryOnStuck).Plays children (fun r ds' _ => ∃ c,
      Course.Told children s n command args retryOnStuck r c ∧ ds' = ds ++ c.deeds) ds s := by
  rw [run]
  simp only [plays_bind, plays_state, then_ok]
  refine plays_give (fun e s' _ => ?_) fun id argv s' hline hprepared _ => ?_
  · exact ⟨⟨.failed e, none, none⟩, Course.told_first (Try.of_failed command e)
      (fun h => absurd rfl h) (by simp [Try.Stuck, Try.failed]), by simp [Course.deeds]⟩
  by_cases hretried : retryOnStuck = true ∧ command ∈ s.daemons.retryCommands
  · have hbound : (if (retryOnStuck && s.daemons.retryCommands.contains command) = true then 2
        else 1 : Int) = 2 := if_pos (by simpa using hretried)
    rw [hbound]
    show (Retry.attemptsFrom isStuck (fun _ => (Daemon.attempt n id argv command).run)
      (between (some fun _ => recoverStuck n) 2 s'.daemons.stuckDelay) 1 1).Plays children _ ds s'
    rw [Retry.attemptsFrom, Prog.plays_seq, ← plays_iff_run]
    refine plays_attempt.mono fun r ds₁ s₁ h => ?_
    obtain ⟨t, ht, rfl⟩ := h
    have hended : ¬ t.Stuck command → ∃ c, Course.Told children s n command args retryOnStuck r c ∧
        ds ++ t.deeds = ds ++ c.deeds := fun hnot =>
      ⟨⟨t, none, none⟩, ht.result ▸ Course.told_first ht.attempt (fun _ => hline) fun h => hnot h.2,
        by simp [Course.deeds]⟩
    cases r with
    | ok result => exact (Prog.plays_return _ _).2 (hended (by simp [ht.stuck]))
    | error e =>
      dsimp only
      split
      · next hstuck => exact plays_retry hretried hline hprepared ht hstuck
      · next hstuck =>
        exact (Prog.plays_return _ _).2 (hended (by simpa [ht.stuck] using hstuck))
  · have hbound : (if (retryOnStuck && s.daemons.retryCommands.contains command) = true then 2
        else 1 : Int) = 1 := if_neg (by simpa using hretried)
    rw [hbound]
    show (Daemon.attempt n id argv command).run.Plays children _ ds s'
    rw [← plays_iff_run]
    refine plays_attempt.mono fun r ds' s' h => ?_
    obtain ⟨t, ht, rfl⟩ := h
    exact ⟨⟨t, none, none⟩, ht.result ▸ Course.told_first ht.attempt (fun _ => hline)
      fun h => hretried h.1, by simp [Course.deeds]⟩

/-- However its child processes behave, a daemon command takes a course: at most one recovery,
between two attempts. -/
theorem run_takes_course (children : Children) (s : State) (n : Nat) (command : String)
    (args : List Json) (retryOnStuck : Bool) :
    ∃ c : Course, c.Of s n command args retryOnStuck ∧
      (∃ s', (run n command args retryOnStuck).run.play children [] s =
        some (c.result, c.deeds, s')) ∧
      (children.Quiet → c.Undisturbed n) := by
  obtain ⟨r, ds, s', hplay, c, hc, rfl⟩ := (plays_iff_run _ _).1
    (plays_run children [] s n command args retryOnStuck)
  exact ⟨c, hc.course, ⟨s', hc.result ▸ hplay⟩, hc.undisturbed⟩

/-- Processes of a daemon that does not answer and cannot be killed; once its status file is gone
another one answers. -/
def wedged : Children where
  answer ds s c :=
    if c.argv.contains "kill" then (.ok ⟨c.argv, some 2, "", "timed out"⟩, s)
    else if ds.isEmpty then (.ok ⟨c.argv, some 2, "", "Connection refused"⟩, s)
    else (.ok ⟨c.argv, some 0, "", ""⟩, s)

theorem quiet_wedged : wedged.Quiet := by
  refine ⟨fun ds s c => ?_, fun _ _ _ => rfl⟩
  unfold wedged
  dsimp only
  split
  · rfl
  · split <;> rfl

/-- A workspace with the status file of a daemon. -/
def wedgedState : State :=
  let place := Files.Tree.locationOf
  let files := Files.Tree.put (Files.Tree.put { executables := [place "/usr/bin/dmypy"] }
    (place "/usr/bin/dmypy") (.file [])) (place "/w/status") (.file [])
  { world := { files, environment := Assoc.ofList [("PATH", "/usr/bin")] }
    registrations := [⟨⟨Path.ofString "/w", Settings.set {} .statusFile (.str "status")⟩, false⟩] }

/-- What a deed is about: the command that a process was given, or the names of a place. -/
def subject : Deed → List String
  | .started d => (d.call.argv.drop 3).take 1
  | .lost places => places.flatten

/-- Killing fails, the status file is removed, and the command is given again. -/
theorem run_takes_course_when_wedged : ∃ c : Course,
    c.deeds.map subject = [["run"], ["kill"], ["w", "status"], ["run"]] ∧
      c.result.isOk = true ∧ c.Of wedgedState 0 "run" [] true ∧ c.Undisturbed 0 := by
  have hplayed : ((run 0 "run" [] true).run.play wedged [] wedgedState).map
      (fun (r, ds, _) => (r.isOk, ds.map subject)) =
        some (true, [["run"], ["kill"], ["w", "status"], ["run"]]) := by
    decide +kernel
  obtain ⟨c, hc, ⟨s', hplay⟩, hundisturbed⟩ := run_takes_course wedged wedgedState 0 "run" [] true
  rw [hplay] at hplayed
  simp only [Option.map_some, Option.some.injEq, Prod.mk.injEq] at hplayed
  exact ⟨c, hplayed.2, hplayed.1, hc, hundisturbed quiet_wedged⟩

end Daemon

end Overseer
