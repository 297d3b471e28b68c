import Overseer.Proofs.Whereabouts

set_option autoImplicit false

/-! # Nobody is lost

Whoever has begun and has not ended is running or stands somewhere. What has ended is on record: the
replies of the host's operations among the finished ones, the results of jobs in their batches
(`Census`). Every move keeps this up (`Census.step`).

So if the queue is empty, no child process is left and nobody pauses, everybody has ended
(`Census.ended_of_idle`): whoever holds a lock would go on, and whoever waits behind a batch would
wait for a job that waits behind a later one. -/

namespace Overseer

open History Chronicle

/-! ## Who is open -/

namespace History

variable {h : History} {j : TaskId}

/-- A task has begun and has not ended. -/
def IsOpen (h : History) (i : TaskId) : Prop := h.story i ≠ [] ∧ h.reply? i = none

theorem story_cons_ne_nil (m : Moment) (h : History) (j : TaskId) :
    story (m :: h) j ≠ [] ↔ m.who = j ∨ h.story j ≠ [] := by
  rw [story_cons]
  split
  · next hj => simp [hj]
  · next hj => simp [hj]

theorem isOpen_cons_ended {i : TaskId} {r : Except Fault Reply} {s : State} :
    IsOpen (⟨i, .ended r, s⟩ :: h) j ↔ i ≠ j ∧ h.IsOpen j := by
  rw [IsOpen, story_cons_ne_nil, reply?_cons]
  by_cases hj : i = j
  · simp [hj, Happening.reply?]
  · simp [hj, IsOpen]

end History

/-! ## The stories of jobs -/

namespace Chronicle

variable {c : Chronicle} {i j : TaskId} {jobs : List Job}
  {k : List (Except Fault CheckResult) → Task Reply}

/-- The moments at which jobs are asked for. -/
def askings (batch : Nat) (s : State) (js : List (Job × Nat)) : History :=
  (js.map fun x => ⟨.job batch x.2, .asked (.job x.1), s⟩).reverse

theorem history_startBatch (c : Chronicle) (i : TaskId) (jobs : List Job)
    (k : List (Except Fault CheckResult) → Task Reply) : (c.startBatch i jobs k).history =
      askings c.session.batches.length c.session.state jobs.zipIdx ++
        ⟨i, .gathered jobs, c.session.state⟩ :: c.history := by
  have hfold : ∀ (batch : Nat) (js : List (Job × Nat)) (c : Chronicle),
      (js.foldl (fun c x => c.begin (.job batch x.2) (.job x.1)
        (Session.jobTask batch x.2 x.1)) c).history =
          askings batch c.session.state js ++ c.history := by
    intro batch js
    induction js with
    | nil => exact fun c => rfl
    | cons x js ih =>
      intro c
      rw [List.foldl_cons, ih, askings, askings, List.map_cons, List.reverse_cons,
        List.append_assoc]
      rfl
  exact hfold _ _ _

theorem story_askings (batch : Nat) (s : State) (jobs : List Job) (start : Nat) (j : TaskId) :
    (∀ index job, jobs[index]? = some job → j = .job batch (start + index) →
      (askings batch s (jobs.zipIdx start)).story j = [⟨j, .asked (.job job), s⟩]) ∧
    ((∀ index job, jobs[index]? = some job → j ≠ .job batch (start + index)) →
      (askings batch s (jobs.zipIdx start)).story j = []) := by
  induction jobs generalizing start with
  | nil => exact ⟨fun index job h => absurd h (by simp), fun _ => rfl⟩
  | cons job jobs ih =>
    have hsplit : (askings batch s ((job :: jobs).zipIdx start)).story j =
        (askings batch s (jobs.zipIdx (start + 1))).story j ++
          if .job batch start = j then [⟨j, .asked (.job job), s⟩] else [] := by
      have hone : story [⟨.job batch start, .asked (.job job), s⟩] j =
          if .job batch start = j then [⟨j, .asked (.job job), s⟩] else [] := by
        rw [story_cons]
        split
        · next hj =>
          obtain rfl : TaskId.job batch start = j := hj
          rfl
        · rfl
      rw [askings, List.zipIdx_cons, List.map_cons, List.reverse_cons, story, List.filter_append,
        ← hone]
      rfl
    rw [hsplit]
    obtain ⟨hsome, hnone⟩ := ih (start + 1)
    refine ⟨fun index job' hget hj => ?_, fun hj => ?_⟩
    · cases index with
      | zero =>
        cases hget
        rw [Nat.add_zero] at hj
        rw [if_pos hj.symm, hnone fun index job' _ hj' => ?_, List.nil_append]
        rw [hj] at hj'
        have := (TaskId.job.inj hj').2
        omega
      | succ index =>
        have hne : TaskId.job batch start ≠ j := by
          rintro rfl
          have := (TaskId.job.inj hj).2
          omega
        rw [if_neg hne, List.append_nil, hsome index job' hget (by rw [hj]; congr 1; omega)]
    · have hne : TaskId.job batch start ≠ j := fun h => hj 0 job rfl h.symm
      rw [if_neg hne, List.append_nil, hnone fun index job' hget hj' => ?_]
      exact hj (index + 1) job' hget (by rw [hj']; congr 1; omega)

/-- A job of a new batch has been asked for. -/
theorem story_startBatch_job {index : Nat} {job : Job} (hjob : jobs[index]? = some job)
    (hnew : c.history.story (.job c.session.batches.length index) = [])
    (hi : c.history.story i ≠ []) :
    (c.startBatch i jobs k).history.story (.job c.session.batches.length index) =
      [⟨.job c.session.batches.length index, .asked (.job job), c.session.state⟩] := by
  have hne : i ≠ .job c.session.batches.length index := fun h => hi (h ▸ hnew)
  rw [history_startBatch, story, List.filter_append, ← story, ← story, story_cons_of_ne _ hne, hnew,
    List.append_nil]
  exact (story_askings _ _ jobs 0 _).1 index job hjob (by rw [Nat.zero_add])

/-- All others have the story that they had. -/
theorem story_startBatch_of_ne
    (hj : ∀ index job, jobs[index]? = some job → j ≠ .job c.session.batches.length index) :
    (c.startBatch i jobs k).history.story j =
      story (⟨i, .gathered jobs, c.session.state⟩ :: c.history) j := by
  rw [history_startBatch, story, List.filter_append, ← story, ← story,
    (story_askings _ _ jobs 0 _).2 fun index job hjob => by
      rw [Nat.zero_add]
      exact hj index job hjob]
  rfl

section

variable (hnew : ∀ index, c.history.story (.job c.session.batches.length index) = [])
include hnew

/-- The jobs of a new batch have begun. -/
theorem story_startBatch_ne_nil (hi : c.history.story i ≠ []) :
    (c.startBatch i jobs k).history.story j ≠ [] ↔ c.history.story j ≠ [] ∨
      ∃ index job, jobs[index]? = some job ∧ .job c.session.batches.length index = j := by
  by_cases hj : ∃ index job, jobs[index]? = some job ∧ .job c.session.batches.length index = j
  · obtain ⟨index, job, hjob, rfl⟩ := hj
    rw [story_startBatch_job hjob (hnew index) hi]
    simp only [ne_eq, reduceCtorEq, not_false_eq_true, true_iff]
    exact .inr ⟨index, job, hjob, rfl⟩
  · rw [story_startBatch_of_ne fun index job hjob h => hj ⟨index, job, hjob, h.symm⟩,
      story_cons_ne_nil, or_iff_left hj, or_iff_right_of_imp]
    rintro rfl
    exact hi

/-- Nobody ends when jobs are started. -/
theorem reply?_startBatch (hi : c.history.IsOpen i) :
    (c.startBatch i jobs k).history.reply? j = c.history.reply? j := by
  by_cases hj : ∃ index job, jobs[index]? = some job ∧ .job c.session.batches.length index = j
  · obtain ⟨index, job, hjob, rfl⟩ := hj
    rw [reply?, story_startBatch_job hjob (hnew index) hi.1, reply?, hnew]
    rfl
  · rw [reply?, story_startBatch_of_ne fun index job hjob h => hj ⟨index, job, hjob, h.symm⟩,
      ← reply?, reply?_cons]
    split
    · next hij =>
      obtain rfl : i = j := hij
      exact hi.2.symm
    · rfl

end

end Chronicle

/-! ## Census -/

/-- Whoever is open runs or stands somewhere, and nobody else does; whoever runs stands nowhere; all
ends are on record, and those of the past stay on record. -/
structure Census (past : History) (who : Option TaskId) (c : Chronicle) : Prop where
  orderly : c.session.Orderly
  whereabouts : ∀ i, c.history.IsOpen i ↔ c.session.Standing i ∨ who = some i
  running : ∀ i, who = some i → ¬ c.session.Standing i
  hosts : ∀ step, c.session.result? step = c.history.reply? (.host step)
  jobs : ∀ batch index,
    c.history.story (.job batch index) ≠ [] ↔ (c.session.slot? batch index).isSome = true
  outcomes : ∀ batch index, c.history.reply? (.job batch index) =
    (c.session.slot? batch index).join.map (·.map .checked)
  kept : ∀ i r, past.reply? i = some r → c.history.reply? i = some r

namespace Census

variable {past : History} {c c' : Chronicle} {who who' : Option TaskId} {i : TaskId}

/-- All that is on record now stays on record. -/
theorem renew (hc : Census past who c) : Census c.history who c :=
  { hc with kept := fun _ _ h => h }

/-- Some come and nobody ends. -/
theorem change (hc : Census past who c) (New : TaskId → Prop)
    (hnew : ∀ j, New j → c.history.story j = []) (horderly : c'.session.Orderly)
    (hreply : ∀ j, c'.history.reply? j = c.history.reply? j)
    (hbegun : ∀ j, c'.history.story j ≠ [] ↔ c.history.story j ≠ [] ∨ New j)
    (hwhere : ∀ j, c'.session.Standing j ∨ who' = some j ↔
      (c.session.Standing j ∨ who = some j) ∨ New j)
    (hrunning : ∀ j, who' = some j → ¬ c'.session.Standing j)
    (hfinished : c'.session.finished = c.session.finished)
    (hslot : ∀ batch index,
      (c'.session.slot? batch index).join = (c.session.slot? batch index).join ∧
      ((c'.session.slot? batch index).isSome = true ↔
        (c.session.slot? batch index).isSome = true ∨ New (.job batch index))) :
    Census past who' c' where
  orderly := horderly
  whereabouts j := by
    have hnone : New j → c.history.reply? j = none := fun hj => by rw [reply?, hnew j hj]; rfl
    rw [hwhere, ← hc.whereabouts, History.IsOpen, History.IsOpen, hbegun, hreply]
    tauto
  running := hrunning
  hosts step := by
    rw [hreply, ← hc.hosts, Session.result?, hfinished, Session.result?]
  jobs batch index := by rw [hbegun, hc.jobs, (hslot batch index).2]
  outcomes batch index := by rw [hreply, hc.outcomes, (hslot batch index).1]
  kept j r hr := (hreply j).trans (hc.kept j r hr)

/-- Somebody who is open does something that is no end. -/
theorem note (hc : Census past who c) (hi : c.history.IsOpen i) (what : Happening)
    (hwhat : what.reply? = none) : Census past who (c.note i what) := by
  obtain ⟨hbegun, hopen⟩ := hi
  refine hc.change (fun _ => False) (by simp) hc.orderly (fun j => ?_) (fun j => ?_)
    (fun j => (or_false _).symm.to_iff) hc.running rfl fun _ _ => ⟨rfl, (or_false _).symm.to_iff⟩
  · rw [Chronicle.note, reply?_cons]
    split
    · next hj =>
      cases hj
      rw [hopen, hwhat]
    · rfl
  · rw [Chronicle.note, story_cons_ne_nil, or_false, or_iff_right_of_imp]
    rintro rfl
    exact hbegun

/-- Tasks change their places. -/
theorem onSession (hc : Census past who c) {f : Session Reply → Session Reply}
    (horderly : (f c.session).Orderly)
    (hwhere : ∀ j, (f c.session).Standing j ∨ who' = some j ↔ c.session.Standing j ∨ who = some j)
    (hrunning : ∀ j, who' = some j → ¬ (f c.session).Standing j)
    (hfinished : (f c.session).finished = c.session.finished)
    (hslot : ∀ n index, (f c.session).slot? n index = c.session.slot? n index) :
    Census past who' (c.onSession f) :=
  hc.change (fun _ => False) (by simp) horderly (fun _ => rfl)
    (fun _ => by simp [Chronicle.onSession])
    (fun j => by simpa [Chronicle.onSession] using hwhere j) hrunning hfinished
    fun n index => by simp [Chronicle.onSession, hslot]

/-! ### Running -/

theorem isOpen (hc : Census past (some i) c) : c.history.IsOpen i := (hc.whereabouts i).2 (.inr rfl)

/-- Nothing happens that has to do with where tasks stand. -/
theorem quiet (hc : Census past who c) {f : Session Reply → Session Reply}
    (hready : (f c.session).ready = c.session.ready)
    (hlocks : (f c.session).locks = c.session.locks)
    (hheld : (f c.session).held = c.session.held)
    (hcalls : c.session.calls.length ≤ (f c.session).calls.length)
    (hasleep : (f c.session).asleep = c.session.asleep)
    (hpauses : (f c.session).pauses = c.session.pauses)
    (hbatches : (f c.session).batches = c.session.batches)
    (hfinished : (f c.session).finished = c.session.finished) :
    Census past who (c.onSession f) := by
  have hlock : ∀ l, (f c.session).lock l = c.session.lock l := fun l => by
    rw [Session.lock, hlocks, Session.lock]
  have hstanding : ∀ j, (f c.session).Standing j ↔ c.session.Standing j := fun j => by
    simp only [Session.Standing, Session.Queues, Session.Awaits, Session.Attends, Session.Sleeps,
      Session.Gathers, Session.tasks, hready, hlock, hheld, hasleep, hbatches]
  refine hc.onSession
    (hc.orderly.congr (by rw [hready]) (fun l hl => ?_) (fun n x hx => ?_)
      (fun n t ht => ?_) hbatches)
    (fun j => or_congr_left (hstanding j)) (fun j hj hs => hc.running j hj ((hstanding j).1 hs))
    hfinished fun n index => ?_
  · rw [hlock] at hl ⊢
    exact hc.orderly.free l hl
  · rw [hheld] at hx
    exact Nat.lt_of_lt_of_le (hc.orderly.calls n x hx) hcalls
  · rw [hasleep] at ht
    rw [hpauses]
    exact hc.orderly.pauses n t ht
  · rw [Session.slot?, hbatches, Session.slot?]

/-- A running task ends. -/
theorem finish (hc : Census past (some i) c) {f : Finished Reply} (hf : f.who = i) :
    Census past none ((c.note i (.ended f.reply)).onSession (·.finish f)) := by
  subst hf
  obtain ⟨hbegun, hnone⟩ := hc.isOpen
  have hslot : ∀ batch index r, f = .job batch index r →
      c.session.slot? batch index = some none := by
    rintro batch index r rfl
    have hjoin := (hc.outcomes batch index).symm.trans hnone
    obtain ⟨o, ho⟩ := Option.isSome_iff_exists.1 ((hc.jobs batch index).1 hbegun)
    rw [ho] at hjoin ⊢
    exact congrArg some (Option.map_eq_none_iff.1 hjoin)
  obtain ⟨h, hh⟩ : ∃ h : History, h = ⟨f.who, .ended f.reply, c.session.state⟩ :: c.history :=
    ⟨_, rfl⟩
  have hreply : ∀ j, h.reply? j = if f.who = j then some f.reply else c.history.reply? j :=
    fun j => by rw [hh]; exact reply?_cons _ _ j
  have hstory : ∀ j, h.story j ≠ [] ↔ f.who = j ∨ c.history.story j ≠ [] :=
    fun j => by rw [hh]; exact story_cons_ne_nil _ _ j
  suffices hcensus : Census past none ⟨c.session.finish f, h, c.asked⟩ by
    rw [hh] at hcensus
    exact hcensus
  refine ⟨hc.orderly.finish hslot, fun j => ?_, by simp, fun step => ?_, fun batch index => ?_,
    fun batch index => ?_, fun j r hr => ?_⟩
  · rw [hh, isOpen_cons_ended, Session.standing_finish, hc.whereabouts]
    have hout := hc.running j
    simp only [Option.some.injEq, reduceCtorEq, or_false, ne_eq] at hout ⊢
    by_cases hj : f.who = j
    · simp [hj, hout hj]
    · simp [hj]
  · rw [hreply]
    cases f with
    | host step' r =>
      show (c.session.finish (.host step' r)).result? step = _
      rw [Session.result?_finish ((hc.hosts step').trans hnone), hc.hosts]
      simp only [Finished.who, TaskId.host.injEq, Finished.reply]
    | job batch index r => exact hc.hosts step
  · rw [hstory, hc.jobs]
    cases f with
    | host step r =>
      show _ ↔ (c.session.slot? batch index).isSome = true
      simp [Finished.who]
    | job batch' index' r =>
      rw [Session.slot?_finish (hslot _ _ _ rfl), Finished.who, TaskId.job.injEq]
      split
      · next hj => simp [hj]
      · next hj => simp [hj]
  · rw [hreply]
    cases f with
    | host step r => exact hc.outcomes batch index
    | job batch' index' r =>
      rw [Session.slot?_finish (hslot _ _ _ rfl)]
      simp only [Finished.who, TaskId.job.injEq]
      split
      · rfl
      · exact hc.outcomes batch index
  · rw [hreply, if_neg]
    · exact hc.kept j r hr
    · rintro rfl
      have hold := hc.kept _ r hr
      rw [hnone] at hold
      exact absurd hold (by simp)

/-- Whoever stands where, it is the same ones. -/
theorem relocate (hc : Census past who c) {f : Session Reply → Session Reply}
    (horderly : (f c.session).Orderly)
    (hstanding : ∀ j, (f c.session).Standing j ↔ c.session.Standing j)
    (hfinished : (f c.session).finished = c.session.finished)
    (hslot : ∀ n index, (f c.session).slot? n index = c.session.slot? n index) :
    Census past who (c.onSession f) :=
  hc.onSession horderly (fun j => or_congr_left (hstanding j))
    (fun j hj hs => hc.running j hj ((hstanding j).1 hs)) hfinished hslot

/-- A child process is started. -/
theorem spawned (hc : Census past (some i) c) (call : Call) :
    Census past (some i) (c.spawned i call) :=
  (hc.note hc.isOpen _ rfl).quiet rfl rfl rfl (by simp) rfl rfl rfl rfl

/-- A child process has come back at once. -/
theorem answered (hc : Census past (some i) c) (e : Except Fault Ended) :
    Census past (some i) (c.answered i e) := by
  have hreturned := hc.note hc.isOpen (.returned e) rfl
  exact hreturned.note hreturned.isOpen _ rfl

/-- A running task waits for a child process. -/
theorem hold (hc : Census past (some i) c) {call : Call} {behaviour : Behaviour}
    {k : Except Fault Ended → Task Reply} (hby : ∀ e, (k e).By i) :
    Census past none ((c.spawned i call).onSession fun s =>
      { s with held := s.held.insert c.session.calls.length ⟨call, behaviour, k⟩ }) := by
  have hspawned := hc.spawned call
  have hfresh : c.session.held.get? c.session.calls.length = none := by
    cases hx : c.session.held.get? c.session.calls.length with
    | none => rfl
    | some x => exact absurd (hc.orderly.calls _ _ hx) (Nat.lt_irrefl _)
  refine hspawned.onSession
    (hspawned.orderly.congr rfl hspawned.orderly.free (fun n x hx => ?_) hspawned.orderly.pauses
      rfl) (fun j => ?_) (by simp) rfl fun _ _ => rfl
  · replace hx := (Assoc.get?_insert _ _ _ _).symm.trans hx
    split at hx
    · next hn =>
      rw [hn]
      simp [Chronicle.spawned, Chronicle.onSession]
    · exact hspawned.orderly.calls n x hx
  · have hstanding := Session.standing_hold (s := (c.spawned i call).session) (j := j)
      (x := ⟨call, behaviour, k⟩) hfresh hby
    rw [hstanding]
    simp

/-- A running task pauses. -/
theorem lieDown (hc : Census past (some i) c) {ms : Int} {t : Task Reply} (hby : t.By i) :
    Census past none (c.lieDown i ms t) := by
  have hfresh : c.session.asleep.get? c.session.pauses = none := by
    cases ht : c.session.asleep.get? c.session.pauses with
    | none => rfl
    | some t => exact absurd (hc.orderly.pauses _ _ ht) (Nat.lt_irrefl _)
  refine (hc.note hc.isOpen _ rfl).onSession (hc.orderly.lieDown t) (fun j => ?_) (by simp) rfl
    fun _ _ => rfl
  rw [show (c.note i (.slept ms)).session = c.session from rfl, Session.standing_lieDown hfresh,
    hby.owner]
  simp

/-- A running task waits for a lock. -/
theorem await (hc : Census past (some i) c) {l : Nat} {t : Task Reply}
    (hheld : (c.session.lock l).held = true) (hby : t.By i) : Census past none (c.await i l t) := by
  refine (hc.note hc.isOpen _ rfl).onSession (hc.orderly.setLock fun h => ?_) (fun j => ?_)
    (by simp) rfl fun _ _ => rfl
  · exact absurd (hheld.symm.trans h) (by simp)
  · rw [Session.standing_await, hby.owner]
    simp

/-- A running task is given a lock that was free. -/
theorem enter (hc : Census past (some i) c) {l : Nat} (hfree : (c.session.lock l).held = false) :
    Census past (some i) (c.enter i l) := by
  have hlocked : Census past (some i)
      ((c.note i (.reached l)).onSession (·.setLock l ⟨true, []⟩)) :=
    (hc.note hc.isOpen _ rfl).relocate (hc.orderly.setLock (by simp))
      (fun j => Session.standing_setLock (hc.orderly.free l hfree) rfl) rfl fun _ _ => rfl
  have hentered := hlocked.note hlocked.isOpen (.entered l) rfl
  exact hentered.note hentered.isOpen _ rfl

/-- A running task gives back a lock. -/
theorem leave (hc : Census past (some i) c) (l : Nat) : Census past (some i) (c.leave i l) := by
  have hleft := hc.note hc.isOpen (.left l) rfl
  have hfree : (c.session.free l).finished = c.session.finished ∧
      ∀ n index, (c.session.free l).slot? n index = c.session.slot? n index := by
    rw [Session.free]
    split <;> exact ⟨rfl, fun _ _ => rfl⟩
  rw [Chronicle.leave]
  cases hwaiting : (c.session.lock l).waiting with
  | nil =>
    exact hleft.relocate hc.orderly.giveBack (fun _ => Session.standing_free) hfree.1 hfree.2
  | cons t rest =>
    -- the one who is given the lock has stood in front of it
    have hopen := (hleft.whereabouts t.owner).2
      (.inl (.inr (.inl ⟨l, t, by simp [hwaiting], rfl⟩)))
    exact (hleft.note hopen (.entered l) rfl).relocate hc.orderly.giveBack
      (fun _ => Session.standing_free) hfree.1 hfree.2

/-- A running task starts jobs and waits for them. -/
theorem startBatch (hc : Census past (some i) c) {jobs : List Job}
    {k : List (Except Fault CheckResult) → Task Reply} (hby : ∀ rs, (k rs).By i)
    (hjobs : jobs ≠ []) : Census past none (c.startBatch i jobs k) := by
  have hslot : ∀ index, c.session.slot? c.session.batches.length index = none := fun index => by
    rw [Session.slot?, List.getElem?_eq_none (Nat.le_refl _), Option.bind_none]
  have hfresh : ∀ index, c.history.story (.job c.session.batches.length index) = [] := by
    intro index
    by_contra hne
    have hsome := (hc.jobs _ _).1 hne
    rw [hslot] at hsome
    exact absurd hsome (by simp)
  have hold : ∀ batch index, i = .job batch index → batch < c.session.batches.length := by
    rintro batch index rfl
    obtain ⟨o, ho⟩ := Option.isSome_iff_exists.1 ((hc.jobs _ _).1 hc.isOpen.1)
    obtain ⟨x, hx, -⟩ := Option.bind_eq_some_iff.1 ho
    exact (List.getElem?_eq_some_iff.1 hx).1
  have hsession := Chronicle.session_startBatch c i jobs k
  refine hc.change (fun j => ∃ index job, jobs[index]? = some job ∧
    .job c.session.batches.length index = j) ?_ ?_ (fun j => ?_) (fun j => ?_) (fun j => ?_)
    (by simp) ?_ fun batch index => ?_
  · rintro j ⟨index, job, -, rfl⟩
    exact hfresh index
  · rw [hsession]
    exact hc.orderly.startBatch hby hold
  · rw [reply?_startBatch hfresh hc.isOpen]
  · rw [story_startBatch_ne_nil hfresh hc.isOpen.1]
  · rw [hsession, Session.standing_startBatch hby hjobs]
    simp [or_assoc]
  · rw [hsession, Session.startBatch_eq]
  · rw [hsession, Session.slot?_startBatch]
    split
    · next hbatch =>
      subst hbatch
      rw [hslot]
      cases hget : jobs[index]? with
      | none => simp [hget]
      | some job => simp [hget]
    · next hbatch =>
      refine ⟨rfl, (or_iff_left ?_).symm⟩
      rintro ⟨index', job, -, hj⟩
      exact hbatch (TaskId.job.inj hj).1.symm

/-- A running task runs until it ends or has to wait. -/
theorem run (t : Task Reply) (hc : Census past (some i) c) (hby : t.By i) :
    Census past none (c.run i t) := by
  induction t generalizing c with
  | done f => exact hc.finish hby
  | read k ih => exact ih _ hc (hby _)
  | write s k ih => exact ih (hc.quiet rfl rfl rfl (Nat.le_refl _) rfl rfl rfl rfl) hby
  | spawn call k ih =>
    have hspawned := hc.spawned call
    rw [Chronicle.run]
    cases (Behaviour.take call c.session.script).1.fault? with
    | some fault => exact ih _ (hspawned.answered _) (hby _)
    | none =>
      simp only
      split
      · exact hc.hold hby
      · exact ih _ ((hspawned.quiet rfl rfl rfl (Nat.le_refl _) rfl rfl rfl rfl).answered _)
          (hby _)
  | sleep ms k ih => exact hc.lieDown hby
  | lock l k ih =>
    rw [Chronicle.run]
    split
    · next hheld => exact hc.await hheld hby
    · next hheld => exact ih (hc.enter (by simpa using hheld)) hby
  | unlock l k ih => exact ih (hc.leave l) hby
  | gather jobs k ih =>
    rw [Chronicle.run]
    split
    · have hgathered := hc.note hc.isOpen (.gathered jobs) rfl
      exact ih [] (hgathered.note hgathered.isOpen _ rfl) (hby [])
    · next hjobs => exact hc.startBatch hby (by simpa using hjobs)

/-! ### Moves -/

section Moves

variable {s₀ : State}

/-- The host asks for something. -/
theorem begin (hc : Census past none c) {q : Request} {t : Task Reply} {step : Nat}
    (hnew : c.history.story (.host step) = []) (howner : t.owner = .host step)
    (hhistory : c'.history = ⟨.host step, .asked q, c.session.state⟩ :: c.history)
    (hsession : c'.session = c.session.enqueue (.task t)) : Census past none c' := by
  refine hc.change (.host step = ·) (fun j hj => hj ▸ hnew) ?_ (fun j => ?_) (fun j => ?_)
    (fun j => ?_) (by simp) ?_ fun batch index => ?_
  · rw [hsession]
    exact hc.orderly.enqueue t
  · rw [hhistory, reply?_cons]
    split
    · next hj =>
      obtain rfl : TaskId.host step = j := hj
      rw [reply?, hnew]
      rfl
    · rfl
  · rw [hhistory, story_cons_ne_nil, or_comm]
  · rw [hsession, Session.standing_enqueue, howner]
    simp
  · rw [hsession]
    rfl
  · rw [hsession]
    exact ⟨rfl, by simp [Session.slot?, Session.enqueue]⟩

/-- A task leaves its place and runs. -/
theorem goOn (hc : Census past none c) {f : Session Reply → Session Reply} {t : Task Reply}
    {place : TaskId → Station}
    (hrunning : ((c.onSession f).note t.owner .resumed).Running s₀ c.session.state t.owner place)
    (hby : t.By t.owner) (horderly : (f c.session).Orderly)
    (hstanding : ∀ j, (f c.session).Standing j ∨ t.owner = j ↔ c.session.Standing j)
    (hfinished : (f c.session).finished = c.session.finished)
    (hslot : ∀ n index, (f c.session).slot? n index = c.session.slot? n index) :
    Census past none (((c.onSession f).note t.owner .resumed).run t.owner t) := by
  have hout : ¬ (f c.session).Standing t.owner := by
    intro hs
    obtain ⟨x, hx⟩ := hs.exists_stands
    exact Accord.Holds.not_stands hrunning hx
  have hleft : Census past (some t.owner) (c.onSession f) :=
    hc.onSession horderly (fun j => by simpa using hstanding j)
      (fun j hj => Option.some.inj hj ▸ hout) hfinished hslot
  exact run t (hleft.note hleft.isOpen _ rfl) hby

/-- The first task of the queue runs. -/
theorem takeTask (hc : Census past none c) (hrest : c.Resting s₀) (h₀ : s₀.Coherent)
    {t : Task Reply} {rest : List (Ready Reply)} (hready : c.session.ready = .task t :: rest) :
    Census past none ((c.onSession fun s => { s with ready := rest }).takeReady (.task t)) := by
  obtain ⟨place, hrunning, hby, -⟩ := hrest.dequeue h₀ hready
  refine hc.goOn hrunning hby
    (hc.orderly.congr ?_ hc.orderly.free hc.orderly.calls hc.orderly.pauses rfl) (fun j => ?_) rfl
    fun _ _ => rfl
  · rw [hready, List.filterMap_cons_none (by rfl)]
  · have hqueues : c.session.Queues j ↔
        ({ c.session with ready := rest } : Session Reply).Queues j ∨ t.owner = j := by
      simp only [Session.Queues, Session.tasks, hready, List.filterMap_cons, Ready.task?,
        List.mem_cons, or_and_right, exists_or, exists_eq_left]
      exact or_comm
    rw [Session.Standing, Session.Standing, hqueues, or_right_comm]
    rfl

/-- A task that pauses is woken and runs. -/
theorem wake (hc : Census past none c) (hrest : c.Resting s₀) (h₀ : s₀.Coherent) (pause : Nat) :
    Census past none (c.wake pause) := by
  rw [Chronicle.wake]
  cases ht : c.session.asleep.get? pause with
  | none => exact hc
  | some t =>
    obtain ⟨place, hrunning, hby, -⟩ := hrest.rouse h₀ ht
    refine hc.goOn hrunning hby
      (hc.orderly.congr rfl hc.orderly.free hc.orderly.calls (fun n t' ht' => ?_) rfl)
      (fun j => Session.standing_rouse ht) rfl fun _ _ => rfl
    replace ht' := (Assoc.get?_erase _ _ _).symm.trans ht'
    split at ht'
    · exact absurd ht' (by simp)
    · exact hc.orderly.pauses n t' ht'

/-- The end of a job is noted. -/
theorem noteJob (hc : Census past none c) (hrest : c.Resting s₀) {batch : Nat}
    {rest : List (Ready Reply)} (hready : c.session.ready = .jobEnded batch :: rest) :
    Census past none
      ((c.onSession fun s => { s with ready := rest }).takeReady (.jobEnded batch)) := by
  obtain ⟨x, hx, hnoted⟩ := hc.orderly.tallied.noted_lt hready
  obtain ⟨place, hsound, -⟩ := hrest
  obtain ⟨i, hi⟩ := hsound.layout.batch batch x hx hnoted
  have hwell := hsound.well i
  rw [hi] at hwell
  refine hc.relocate (f := fun s => ({ s with ready := rest } : Session Reply).noteJob batch)
    (hc.orderly.noteJob hready)
    (fun j => (Session.standing_noteJob (s := { c.session with ready := rest }) hx hnoted
      hwell.1).trans ?_) ?_ fun n index => ?_
  · simp only [Session.Standing, Session.Queues, Session.tasks, hready, List.filterMap_cons,
      Ready.task?]
    rfl
  · rw [Session.noteJob]
    split
    · rfl
    · dsimp only
      split <;> rfl
  · exact Session.slot?_noteJob n index

/-- A child process ends. -/
theorem release (hc : Census past none c) (hrest : c.Resting s₀) (call : Nat) :
    Census past none (c.step (.release call)) := by
  rw [Chronicle.step]
  cases hheld : c.session.held.get? call with
  | none => exact hc
  | some x =>
    obtain ⟨place, hsound, -⟩ := hrest
    obtain ⟨-, i, hi⟩ := hsound.layout.child call x hheld
    have hwell := hsound.well i
    rw [hi] at hwell
    have howner : ∀ e, (x.resume e).owner = i := fun e => (hwell.1 e).owner
    have horderly : ({ c.session with
        held := c.session.held.erase call
        state := c.session.state.finished x.behaviour } : Session Reply).Orderly := by
      refine hc.orderly.congr rfl hc.orderly.free (fun n y hy => ?_) hc.orderly.pauses rfl
      replace hy := (Assoc.get?_erase _ _ _).symm.trans hy
      split at hy
      · exact absurd hy (by simp)
      · exact hc.orderly.calls n y hy
    have hreleased : Census past none (c.onSession fun s => ({ s with
        held := s.held.erase call
        state := s.state.finished x.behaviour } : Session Reply).enqueue
          (.task (x.resume (.ok (x.behaviour.ended x.call))))) :=
      hc.relocate (horderly.enqueue _)
        (fun j => Session.standing_release _ hheld hwell.1 (howner _)) rfl fun _ _ => rfl
    have hopen := (hc.whereabouts i).2 (.inl (.inr (.inr (.inl ⟨call, x, hheld, hwell.1⟩))))
    simp only [howner]
    exact hreleased.note hopen (.returned (.ok (x.behaviour.ended x.call))) rfl

/-- Every move keeps a census. -/
theorem step (hc : Census past none c) (hrest : c.Resting s₀) (h₀ : s₀.Coherent)
    (m : Chronicle.Move) : Census past none (c.step m) := by
  cases m with
  | request q =>
    rw [Chronicle.step]
    split
    · have hnew : c.history.story (.host c.asked) = [] := by
        obtain ⟨place, hsound, -⟩ := hrest
        exact hsound.fresh (.host c.asked) (Nat.le_refl _)
      exact hc.begin hnew (by_task q c.asked).owner rfl rfl
    · exact hc
  | respond bs =>
    exact hc.quiet (f := fun s => { s with script := s.script ++ bs }) rfl rfl rfl (Nat.le_refl _)
      rfl rfl rfl rfl
  | world w =>
    exact hc.quiet (f := fun s => { s with state := { s.state with world := w } }) rfl rfl rfl
      (Nat.le_refl _) rfl rfl rfl rfl
  | release call => exact hc.release hrest call
  | wake pause => exact hc.wake hrest h₀ pause
  | take =>
    rw [Chronicle.step]
    split
    · exact hc
    · next r rest hready =>
      cases r with
      | task t => exact hc.takeTask hrest h₀ hready
      | jobEnded batch => exact hc.noteJob hrest hready

/-- Whatever is on record stays on record. -/
theorem steps (hc : Census past none c) (hrest : c.Resting s₀) (h₀ : s₀.Coherent)
    (moves : List Chronicle.Move) : Census past none (moves.foldl Chronicle.step c) := by
  induction moves generalizing c with
  | nil => exact hc
  | cons m moves ih => exact ih (hc.step hrest h₀ m) (hrest.step h₀ m)

end Moves

/-! ### When nothing is left to wait for -/

/-- When the last end of a batch is noted, the results are the replies of its jobs. -/
theorem gathered (hc : Census past none c) {n index : Nat} {x : Batch Reply}
    (hready : c.session.ready.head? = some (.jobEnded n)) (hx : c.session.batches[n]? = some x)
    (hlast : x.noted + 1 = x.results.length) (hjob : c.history.story (.job n index) ≠ []) :
    ∃ r, (x.results.filterMap id)[index]? = some r ∧
      c.history.reply? (.job n index) = some (r.map .checked) := by
  have hpending : 0 < c.session.pending n := by
    obtain ⟨rest, hrest⟩ := List.head?_eq_some_iff.1 hready
    rw [Session.pending, hrest, List.filterMap_cons_some (by rfl)]
    simp
  have hall : ∀ o ∈ x.results, o.isSome = true := by
    have htally := hc.orderly.tallied n
    rw [Session.noted, Session.given, hx, Option.elim_some, Option.elim_some] at htally
    have hle := List.countP_le_length (p := Option.isSome) (l := x.results)
    exact List.countP_eq_length.1 (by omega)
  obtain ⟨rs, hrs⟩ : ∃ rs : List (Except Fault CheckResult), rs.map some = x.results :=
    ⟨x.results.pmap Option.get hall, by simp [List.map_pmap]⟩
  obtain ⟨o, ho⟩ := Option.isSome_iff_exists.1 ((hc.jobs n index).1 hjob)
  have hslot := ho
  rw [Session.slot?, hx, Option.bind_some, ← hrs, List.getElem?_map] at hslot
  obtain ⟨r, hr, rfl⟩ := Option.map_eq_some_iff.1 hslot
  have hnone : x.results.filterMap id = rs := by
    rw [← hrs, List.filterMap_map, Function.id_comp, List.filterMap_some]
  rw [hnone, hc.outcomes, ho]
  exact ⟨r, hr, rfl⟩


/-- Behind a batch whose jobs have not all been noted, there is a job that has not ended. -/
theorem exists_isOpen (hc : Census past none c) (hready : c.session.ready = []) {n : Nat}
    (hi : c.session.Gathers i n) : ∃ index, c.history.IsOpen (.job n index) := by
  obtain ⟨x, hx, hnoted, -⟩ := hi
  have htally := hc.orderly.tallied n
  simp only [Session.pending, Session.noted, Session.given, hready, hx, List.filterMap_nil,
    List.count_nil, Option.elim_some, Nat.zero_add] at htally
  obtain ⟨o, ho, hnone⟩ : ∃ o ∈ x.results, ¬ o.isSome = true := by
    by_contra hall
    have hcount := List.countP_eq_length.2 fun o ho =>
      Classical.not_not.1 fun h => hall ⟨o, ho, h⟩
    omega
  obtain ⟨index, hindex⟩ := List.mem_iff_getElem?.1 ho
  obtain rfl : o = none := by simpa using hnone
  have hslot : c.session.slot? n index = some none := by
    rw [Session.slot?, hx, Option.bind_some, hindex]
  refine ⟨index, (hc.jobs n index).2 (by simp [hslot]), ?_⟩
  rw [hc.outcomes, hslot]
  rfl

/-- When nothing can go on, everybody has ended. -/
theorem ended_of_idle {s₀ : State} (hc : Census past none c) (hrest : c.Resting s₀)
    (hidle : c.session.isIdle = true) (i : TaskId) : ¬ c.history.IsOpen i := by
  obtain ⟨hready, hheld, hasleep⟩ := Session.ready_of_isIdle hidle
  obtain ⟨place, hsound, hlocking⟩ := hrest
  have htasks : c.session.tasks = [] := by rw [Session.tasks, hready, List.filterMap_nil]
  -- whoever holds a lock would go on
  have hawaits : ∀ j, ¬ c.session.Awaits j := by
    rintro j ⟨l, t, ht, -⟩
    have hlock : (c.session.lock l).held = true := by
      by_contra hfree
      rw [hc.orderly.free l (by simpa using hfree)] at ht
      exact absurd ht (by simp)
    obtain ⟨i, -, hactive⟩ := hlocking.held l hlock
    cases hi : place i with
    | running => exact absurd ((hsound.running i).1 hi) (by simp)
    | queue t => exact absurd (hsound.layout.queued i t hi).1 (by simp [htasks])
    | child n x => exact absurd (hsound.layout.children i n x hi) (by simp [hheld])
    | asleep n t => exact absurd (hsound.layout.sleepers i n t hi).1 (by simp [hasleep])
    | _ => exact absurd hactive (by simp [hi, Station.isActive])
  -- whoever stands behind a batch would wait for somebody who stands behind a later one
  have hgathers : ∀ d n j, c.session.batches.length - n ≤ d → ¬ c.session.Gathers j n := by
    intro d
    induction d with
    | zero =>
      rintro n j hd ⟨x, hx, -⟩
      have hn := (List.getElem?_eq_some_iff.1 hx).1
      omega
    | succ d ih =>
      intro n j hd hj
      obtain ⟨index, hopen⟩ := hc.exists_isOpen hready hj
      rcases (hc.whereabouts _).1 hopen with hstanding | hrunning
      · obtain ⟨t, ht, -⟩ | hj' | ⟨n', x, hx, -⟩ | ⟨n', t, ht, -⟩ | ⟨n', hj'⟩ := hstanding
        · exact absurd ht (by simp [htasks])
        · exact hawaits _ hj'
        · exact absurd hx (by simp [hheld])
        · exact absurd ht (by simp [hasleep])
        · have hlt := hc.orderly.order n index n' hj'
          have hlt' : n' < c.session.batches.length := by
            obtain ⟨x, hx, -⟩ := hj'
            exact (List.getElem?_eq_some_iff.1 hx).1
          exact ih n' _ (by omega) hj'
      · exact absurd hrunning (by simp)
  intro hopen
  rcases (hc.whereabouts i).1 hopen with hstanding | hrunning
  · obtain ⟨t, ht, -⟩ | hi | ⟨n, x, hx, -⟩ | ⟨n, t, ht, -⟩ | ⟨n, hi⟩ := hstanding
    · exact absurd ht (by simp [htasks])
    · exact hawaits i hi
    · exact absurd hx (by simp [hheld])
    · exact absurd ht (by simp [hasleep])
    · exact hgathers _ n i (Nat.le_refl _) hi
  · exact absurd hrunning (by simp)

/-- When nothing can go on, whatever the host has asked for has been answered. -/
theorem exists_result_of_idle {s₀ : State} (hc : Census past none c) (hrest : c.Resting s₀)
    (hidle : c.session.isIdle = true) {step : Nat} (hbegun : c.history.story (.host step) ≠ []) :
    ∃ r, c.session.result? step = some r ∧ c.history.reply? (.host step) = some r := by
  cases hreply : c.history.reply? (.host step) with
  | none => exact absurd ⟨hbegun, hreply⟩ (hc.ended_of_idle hrest hidle _)
  | some r => exact ⟨r, (hc.hosts step).trans hreply, rfl⟩

end Census

/-- Before anything has happened, nobody has begun. -/
theorem census_start (s : State) : Census [] none ⟨{ state := s }, [], 0⟩ where
  orderly := ⟨fun n => by simp [Session.pending, Session.noted, Session.given],
    fun l _ => by simp [Session.lock], fun n x hx => absurd hx (by simp),
    fun n t ht => absurd ht (by simp), fun batch index n hg => by
      obtain ⟨x, hx, -⟩ := hg
      exact absurd hx (by simp)⟩
  whereabouts i := by
    simp [History.IsOpen, Session.Standing, Session.Queues, Session.Awaits, Session.Attends,
      Session.Sleeps, Session.Gathers, Session.tasks, Session.lock, story]
  running i hi := absurd hi (by simp)
  hosts step := rfl
  jobs batch index := by simp [story, Session.slot?]
  outcomes batch index := rfl
  kept i r hr := hr

/-- Nobody is lost, whatever has happened. -/
theorem census_after (setup : Setup) (moves : List Move) : Census [] none (after setup moves) :=
  (census_start setup.state).steps (resting_after setup []) (coherent_setup setup) moves

end Overseer
