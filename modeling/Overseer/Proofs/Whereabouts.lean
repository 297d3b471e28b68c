import Overseer.Proofs.Accord

set_option autoImplicit false

/-! # Whereabouts

Where tasks stand in a session: in the queue, in front of a lock, behind a child process, in a pause
or behind a batch (`Session.Standing`). The lemmas say for each way in which a session changes who
stands somewhere behind it.

A session is orderly if nobody can be lost in it (`Session.Orderly`): the ends of the jobs of a
batch have all been noted or are still in the queue, nobody stands in front of a lock that is free,
and jobs stand behind later batches only. -/

namespace Overseer

open Chronicle

/-- The batch that a note in the queue is about. -/
def Ready.batch? : Ready Reply → Option Nat
  | task _ => none
  | jobEnded batch => some batch

/-! ## Where tasks stand -/

namespace Session

variable {s s' : Session Reply} {j : TaskId} {l : Nat} {t : Task Reply}

/-- A task stands in the queue. -/
def Queues (s : Session Reply) (i : TaskId) : Prop := ∃ t ∈ s.tasks, t.owner = i

/-- A task stands in front of a lock. -/
def Awaits (s : Session Reply) (i : TaskId) : Prop := ∃ l, ∃ t ∈ (s.lock l).waiting, t.owner = i

/-- A task stands behind a child process. -/
def Attends (s : Session Reply) (i : TaskId) : Prop :=
  ∃ n x, s.held.get? n = some x ∧ ∀ e, (x.resume e).By i

/-- A task pauses. -/
def Sleeps (s : Session Reply) (i : TaskId) : Prop := ∃ n t, s.asleep.get? n = some t ∧ t.owner = i

/-- A task stands behind a batch. -/
def Gathers (s : Session Reply) (i : TaskId) (n : Nat) : Prop :=
  ∃ x, s.batches[n]? = some x ∧ x.noted < x.results.length ∧ ∀ rs, (x.resume rs).By i

/-- A task stands somewhere. -/
def Standing (s : Session Reply) (i : TaskId) : Prop :=
  s.Queues i ∨ s.Awaits i ∨ s.Attends i ∨ s.Sleeps i ∨ ∃ n, s.Gathers i n

theorem Standing.exists_stands (hj : s.Standing j) : ∃ x, s.Stands j x := by
  obtain ⟨t, ht, rfl⟩ | ⟨l, t, ht, rfl⟩ | ⟨n, x, hx, hby⟩ | ⟨n, t, ht, rfl⟩ |
    ⟨n, x, hx, hnoted, hby⟩ := hj
  · exact ⟨.queue t, ht, rfl⟩
  · exact ⟨.lock l t, ht, rfl⟩
  · exact ⟨.child n x, hx, hby⟩
  · exact ⟨.asleep n t, ht, rfl⟩
  · exact ⟨.batch n x.resume, ⟨x, hx, hnoted, rfl⟩, hby⟩

theorem Stands.standing {x : Station} (hx : s.Stands j x) : s.Standing j := by
  cases x with
  | nowhere | running => exact absurd hx id
  | queue t => exact .inl ⟨t, hx⟩
  | lock l t => exact .inr (.inl ⟨l, t, hx⟩)
  | child n x => exact .inr (.inr (.inl ⟨n, x, hx⟩))
  | asleep n t => exact .inr (.inr (.inr (.inl ⟨n, t, hx⟩)))
  | batch n resume =>
    obtain ⟨⟨x, hx, hnoted, rfl⟩, hby⟩ := hx
    exact .inr (.inr (.inr (.inr ⟨n, x, hx, hnoted, hby⟩)))

theorem queues_enqueue : (s.enqueue (.task t)).Queues j ↔ s.Queues j ∨ t.owner = j := by
  simp only [Queues, tasks_enqueue, List.mem_append, List.mem_singleton, or_and_right,
    exists_or, exists_eq_left]

theorem standing_enqueue : (s.enqueue (.task t)).Standing j ↔ s.Standing j ∨ t.owner = j := by
  rw [Standing, queues_enqueue, or_right_comm]
  rfl

/-- Who stands in front of locks changes with one lock. -/
theorem awaits_setLock {y : Lock Reply} :
    (s.setLock l y).Awaits j ↔
      (∃ t ∈ y.waiting, t.owner = j) ∨ ∃ l', l' ≠ l ∧ ∃ t ∈ (s.lock l').waiting, t.owner = j := by
  constructor
  · rintro ⟨l', t, ht, rfl⟩
    rw [lock_setLock] at ht
    split at ht
    · exact .inl ⟨t, ht, rfl⟩
    · next hl => exact .inr ⟨l', hl, t, ht, rfl⟩
  · rintro (⟨t, ht, rfl⟩ | ⟨l', hl, t, ht, rfl⟩)
    · exact ⟨l, t, by rwa [lock_setLock, if_pos rfl], rfl⟩
    · exact ⟨l', t, by rwa [lock_setLock, if_neg hl], rfl⟩

theorem awaits_iff (s : Session Reply) (l : Nat) :
    s.Awaits j ↔ (∃ t ∈ (s.lock l).waiting, t.owner = j) ∨
      ∃ l', l' ≠ l ∧ ∃ t ∈ (s.lock l').waiting, t.owner = j := by
  constructor
  · rintro ⟨l', ht⟩
    by_cases hl : l' = l
    · exact .inl (hl ▸ ht)
    · exact .inr ⟨l', hl, ht⟩
  · rintro (ht | ⟨l', -, ht⟩)
    · exact ⟨l, ht⟩
    · exact ⟨l', ht⟩

theorem standing_await : (s.await l t).Standing j ↔ s.Standing j ∨ t.owner = j := by
  have hawaits : (s.await l t).Awaits j ↔ s.Awaits j ∨ t.owner = j := by
    rw [await, awaits_setLock, awaits_iff s l]
    simp only [List.mem_append, List.mem_singleton, or_and_right, exists_or, exists_eq_left]
    rw [or_right_comm]
  show s.Queues j ∨ (s.await l t).Awaits j ∨ s.Attends j ∨ s.Sleeps j ∨ (∃ n, s.Gathers j n) ↔ _
  rw [hawaits, Standing]
  tauto

/-- A lock for which nobody waits is taken or given back. -/
theorem standing_setLock {y : Lock Reply} (hwaiting : (s.lock l).waiting = [])
    (hy : y.waiting = []) : (s.setLock l y).Standing j ↔ s.Standing j := by
  have hawaits : (s.setLock l y).Awaits j ↔ s.Awaits j := by
    rw [awaits_setLock, awaits_iff s l, hwaiting, hy]
  rw [Standing, hawaits]
  rfl

theorem standing_free : (s.free l).Standing j ↔ s.Standing j := by
  rw [free]
  split
  · next hwaiting => exact standing_setLock hwaiting rfl
  · next t rest hwaiting =>
    have hawaits : s.Awaits j ↔ (s.setLock l ⟨true, rest⟩).Awaits j ∨ t.owner = j := by
      rw [awaits_setLock, awaits_iff s l, hwaiting]
      simp only [List.mem_cons, or_and_right, exists_or, exists_eq_left]
      rw [or_assoc, or_comm]
    rw [standing_enqueue]
    show (s.Queues j ∨ (s.setLock l ⟨true, rest⟩).Awaits j ∨ s.Attends j ∨ s.Sleeps j ∨
      ∃ n, s.Gathers j n) ∨ t.owner = j ↔ _
    rw [Standing, hawaits]
    tauto

/-- Whoever waits for a new child process stands behind it. -/
theorem standing_hold {x : HeldCall Reply} {n : Nat} {i : TaskId} (hfresh : s.held.get? n = none)
    (hby : ∀ e, (x.resume e).By i) :
    ({ s with held := s.held.insert n x } : Session Reply).Standing j ↔ s.Standing j ∨ i = j := by
  have hattends : ({ s with held := s.held.insert n x } : Session Reply).Attends j ↔
      s.Attends j ∨ i = j := by
    constructor
    · rintro ⟨n', y, hy, hy'⟩
      replace hy := (Assoc.get?_insert _ _ _ _).symm.trans hy
      split at hy
      · cases hy
        exact .inr ((hby (.error (.unknownWorkspace ""))).owner.symm.trans (hy' _).owner)
      · exact .inl ⟨n', y, hy, hy'⟩
    · rintro (⟨n', y, hy, hy'⟩ | rfl)
      · refine ⟨n', y, (Assoc.get?_insert _ _ _ _).trans ((if_neg ?_).trans hy), hy'⟩
        rintro rfl
        rw [hfresh] at hy
        exact absurd hy (by simp)
      · exact ⟨n, x, (Assoc.get?_insert _ _ _ _).trans (if_pos rfl), hby⟩
  show s.Queues j ∨ s.Awaits j ∨ Attends _ j ∨ s.Sleeps j ∨ (∃ n, s.Gathers j n) ↔ _
  rw [hattends, Standing]
  tauto

/-- Whoever stands behind a child process comes into the queue when it ends. -/
theorem standing_release {x : HeldCall Reply} {n : Nat} {i : TaskId} (state : State)
    (hx : s.held.get? n = some x) (hby : ∀ e, (x.resume e).By i) (ht : t.owner = i) :
    (({ s with held := s.held.erase n, state } : Session Reply).enqueue (.task t)).Standing j ↔
      s.Standing j := by
  have hattends : s.Attends j ↔
      ({ s with held := s.held.erase n, state } : Session Reply).Attends j ∨ i = j := by
    constructor
    · rintro ⟨n', y, hy, hy'⟩
      by_cases hn : n' = n
      · subst hn
        cases hx.symm.trans hy
        exact .inr ((hby (.error (.unknownWorkspace ""))).owner.symm.trans (hy' _).owner)
      · exact .inl ⟨n', y, (Assoc.get?_erase _ _ _).trans ((if_neg hn).trans hy), hy'⟩
    · rintro (⟨n', y, hy, hy'⟩ | rfl)
      · replace hy := (Assoc.get?_erase _ _ _).symm.trans hy
        split at hy
        · exact absurd hy (by simp)
        · exact ⟨n', y, hy, hy'⟩
      · exact ⟨n, x, hx, hby⟩
  rw [standing_enqueue, ht]
  show (s.Queues j ∨ s.Awaits j ∨ Attends _ j ∨ s.Sleeps j ∨ ∃ n, s.Gathers j n) ∨ i = j ↔ _
  rw [Standing, hattends]
  tauto

/-- Whoever lies down pauses. -/
theorem standing_lieDown (hfresh : s.asleep.get? s.pauses = none) :
    (s.lieDown t).Standing j ↔ s.Standing j ∨ t.owner = j := by
  have hsleeps : (s.lieDown t).Sleeps j ↔ s.Sleeps j ∨ t.owner = j := by
    constructor
    · rintro ⟨n, t', ht', rfl⟩
      replace ht' := (Assoc.get?_insert _ _ _ _).symm.trans ht'
      split at ht'
      · cases ht'
        exact .inr rfl
      · exact .inl ⟨n, t', ht', rfl⟩
    · rintro (⟨n, t', ht', rfl⟩ | rfl)
      · refine ⟨n, t', (Assoc.get?_insert _ _ _ _).trans ((if_neg ?_).trans ht'), rfl⟩
        rintro rfl
        rw [hfresh] at ht'
        exact absurd ht' (by simp)
      · exact ⟨s.pauses, t, (Assoc.get?_insert _ _ _ _).trans (if_pos rfl), rfl⟩
  show s.Queues j ∨ s.Awaits j ∨ s.Attends j ∨ (s.lieDown t).Sleeps j ∨ (∃ n, s.Gathers j n) ↔ _
  rw [hsleeps, Standing]
  tauto

/-- Whoever is woken does not pause any more, and everybody else stands where he stood. -/
theorem standing_rouse {n : Nat} (ht : s.asleep.get? n = some t) :
    ({ s with asleep := s.asleep.erase n } : Session Reply).Standing j ∨ t.owner = j ↔
      s.Standing j := by
  have hsleeps : s.Sleeps j ↔
      ({ s with asleep := s.asleep.erase n } : Session Reply).Sleeps j ∨ t.owner = j := by
    constructor
    · rintro ⟨n', t', ht', rfl⟩
      by_cases hn : n' = n
      · subst hn
        cases ht.symm.trans ht'
        exact .inr rfl
      · exact .inl ⟨n', t', (Assoc.get?_erase _ _ _).trans ((if_neg hn).trans ht'), rfl⟩
    · rintro (⟨n', t', ht', rfl⟩ | rfl)
      · replace ht' := (Assoc.get?_erase _ _ _).symm.trans ht'
        split at ht'
        · exact absurd ht' (by simp)
        · exact ⟨n', t', ht', rfl⟩
      · exact ⟨n, t, ht, rfl⟩
  show (s.Queues j ∨ s.Awaits j ∨ s.Attends j ∨ Sleeps _ j ∨ ∃ n, s.Gathers j n) ∨
    t.owner = j ↔ _
  rw [Standing, hsleeps]
  tauto

/-- Nothing can go on: the queue is empty, no child process is left, and nobody pauses. -/
def isIdle (s : Session Reply) : Bool :=
  s.ready.isEmpty && s.held.keys.isEmpty && s.asleep.keys.isEmpty

theorem ready_of_isIdle (hs : s.isIdle = true) :
    s.ready = [] ∧ (∀ n, s.held.get? n = none) ∧ ∀ n, s.asleep.get? n = none := by
  simp only [isIdle, Bool.and_eq_true, List.isEmpty_iff] at hs
  exact ⟨hs.1.1, fun n => (Assoc.get?_eq_none_iff _ n).2 (by simp [hs.1.2]),
    fun n => (Assoc.get?_eq_none_iff _ n).2 (by simp [hs.2])⟩

/-! ## Jobs -/

/-- The place for the result of a job in its batch. -/
def slot? (s : Session Reply) (batch index : Nat) : Option (Option (Except Fault CheckResult)) :=
  s.batches[batch]?.bind fun x => x.results[index]?

/-- The number of jobs of a batch whose end has been noted. -/
def noted (s : Session Reply) (batch : Nat) : Nat := s.batches[batch]?.elim 0 Batch.noted

/-- The number of jobs of a batch that have ended. -/
def given (s : Session Reply) (batch : Nat) : Nat :=
  s.batches[batch]?.elim 0 fun x => x.results.countP Option.isSome

/-- The number of jobs of a batch whose end is still to be noted. -/
def pending (s : Session Reply) (batch : Nat) : Nat :=
  (s.ready.filterMap Ready.batch?).count batch

/-- Every end of a job has been noted or is still to be noted. -/
def Tallied (s : Session Reply) : Prop := ∀ n, s.pending n + s.noted n = s.given n

section Finish

variable {batch index : Nat} {r : Except Fault CheckResult}

/-- An operation of the host is found among the finished ones. -/
theorem result?_finish {step : Nat} (hnew : s.result? step = none) (r : Except Fault Reply)
    (step' : Nat) : (s.finish (.host step r)).result? step' =
      if step = step' then some r else s.result? step' := by
  rw [result?] at hnew
  simp only [result?, finish, List.find?_append, List.find?_singleton, decide_eq_true_eq]
  by_cases hstep : step = step'
  · subst hstep
    rw [Option.map_eq_none_iff] at hnew
    simp [hnew]
  · simp [hstep]

theorem getElem?_batches_finish (b : Nat) : (s.finish (.job batch index r)).batches[b]? =
    s.batches[b]?.map fun x =>
      if batch = b then { x with results := x.results.set index (some r) } else x :=
  List.getElem?_modify _ _ _ _

theorem slot?_finish {o : Option (Except Fault CheckResult)} (ho : s.slot? batch index = some o)
    (b k : Nat) : (s.finish (.job batch index r)).slot? b k =
      if batch = b ∧ index = k then some (some r) else s.slot? b k := by
  rw [slot?, getElem?_batches_finish, slot?]
  by_cases hb : batch = b
  · subst hb
    obtain ⟨x, hx, hget⟩ := Option.bind_eq_some_iff.1 ho
    simp only [hx, Option.map_some, Option.bind_some, if_true, List.getElem?_set, true_and]
    have hlt := (List.getElem?_eq_some_iff.1 hget).1
    split
    · rfl
    · rfl
  · simp [hb]

theorem tallied_finish (hs : s.Tallied) (ho : s.slot? batch index = some none) :
    (s.finish (.job batch index r)).Tallied := by
  obtain ⟨x, hx, hget⟩ := Option.bind_eq_some_iff.1 ho
  obtain ⟨hlt, hnone⟩ := List.getElem?_eq_some_iff.1 hget
  intro n
  have hpending : (s.finish (.job batch index r)).pending n =
      s.pending n + if batch = n then 1 else 0 := by
    simp [pending, finish, enqueue, Ready.batch?, List.count_singleton]
  have hn := hs n
  rw [hpending]
  simp only [noted, given, getElem?_batches_finish] at hn ⊢
  by_cases hb : batch = n
  · subst hb
    simp only [hx, Option.map_some, Option.elim_some, if_true] at hn ⊢
    rw [List.countP_set hlt, hnone]
    simp only [Option.isSome_none, Option.isSome_some, if_true, Bool.false_eq_true, if_false]
    omega
  · simp only [if_neg hb, Option.map_id', Nat.add_zero]
    exact hn

theorem gathers_finish (f : Finished Reply) (n : Nat) :
    (s.finish f).Gathers j n ↔ s.Gathers j n := by
  cases f with
  | host step r => rfl
  | job batch index r =>
    simp only [Gathers, getElem?_batches_finish]
    constructor
    · rintro ⟨y, hy, hnoted, hby⟩
      obtain ⟨x, hx, rfl⟩ := Option.map_eq_some_iff.1 hy
      refine ⟨x, hx, ?_⟩
      split at hnoted
      · next hb =>
        rw [if_pos hb] at hby
        exact ⟨by simpa using hnoted, hby⟩
      · next hb =>
        rw [if_neg hb] at hby
        exact ⟨hnoted, hby⟩
    · rintro ⟨x, hx, hnoted, hby⟩
      refine ⟨_, by rw [hx, Option.map_some], ?_⟩
      split
      · exact ⟨by simpa using hnoted, hby⟩
      · exact ⟨hnoted, hby⟩

theorem standing_finish (f : Finished Reply) : (s.finish f).Standing j ↔ s.Standing j := by
  have hqueues : (s.finish f).Queues j ↔ s.Queues j := by
    cases f with
    | host step r => rfl
    | job batch index r => simp [Queues, tasks, finish, enqueue, Ready.task?]
  have hrest : (s.finish f).Awaits j = s.Awaits j ∧ (s.finish f).Attends j = s.Attends j ∧
      (s.finish f).Sleeps j = s.Sleeps j := by
    cases f <;> exact ⟨rfl, rfl, rfl⟩
  simp only [Standing, hqueues, hrest.1, hrest.2.1, hrest.2.2, gathers_finish]

end Finish

/-- The jobs of a batch come into the queue, and the batch behind all others. -/
theorem startBatch_eq (s : Session Reply) (jobs : List Job)
    (resume : List (Except Fault CheckResult) → Task Reply) :
    s.startBatch jobs resume = { s with
      batches := s.batches ++ [⟨jobs.map fun _ => none, 0, resume⟩]
      ready := s.ready ++
        jobs.zipIdx.map fun x => .task (jobTask s.batches.length x.2 x.1) } := by
  have hfold : ∀ (batch : Nat) (js : List (Job × Nat)) (s : Session Reply),
      js.foldl (fun s j => s.enqueue (.task (jobTask batch j.2 j.1))) s =
        { s with ready := s.ready ++ js.map fun x => .task (jobTask batch x.2 x.1) } := by
    intro batch js
    induction js with
    | nil => exact fun s => by simp
    | cons j js ih =>
      intro s
      rw [List.foldl_cons, ih, enqueue, List.append_assoc]
      rfl
  exact hfold _ _ _

theorem getElem?_batches_startBatch (s : Session Reply) (jobs : List Job)
    (resume : List (Except Fault CheckResult) → Task Reply) (n : Nat) :
    (s.startBatch jobs resume).batches[n]? =
      if n = s.batches.length then some ⟨jobs.map fun _ => none, 0, resume⟩
      else s.batches[n]? := by
  rw [startBatch_eq, List.getElem?_append]
  split
  · next hn => rw [if_neg (Nat.ne_of_lt hn)]
  · next hn =>
    split
    · next heq => simp [heq]
    · rw [List.getElem?_eq_none (by simp; omega), List.getElem?_eq_none (by omega)]

section StartBatch

variable {jobs : List Job} {k : List (Except Fault CheckResult) → Task Reply} {i : TaskId}

theorem mem_tasks_startBatch : t ∈ (s.startBatch jobs k).tasks ↔ t ∈ s.tasks ∨
    ∃ index job, jobs[index]? = some job ∧ t = jobTask s.batches.length index job := by
  have htasks : (s.startBatch jobs k).tasks = s.tasks ++
      jobs.zipIdx.map fun x => jobTask s.batches.length x.2 x.1 := by
    rw [startBatch_eq, tasks, List.filterMap_append, List.filterMap_map]
    exact congrArg (s.tasks ++ ·) (congrFun List.filterMap_eq_map' _)
  rw [htasks, List.mem_append, List.mem_map]
  refine or_congr_right ⟨?_, ?_⟩
  · rintro ⟨x, hx, rfl⟩
    exact ⟨x.2, x.1, List.mem_zipIdx_iff_getElem?.1 hx, rfl⟩
  · rintro ⟨index, job, hjob, rfl⟩
    exact ⟨(job, index), List.mem_zipIdx_iff_getElem?.2 hjob, rfl⟩

theorem queues_startBatch : (s.startBatch jobs k).Queues j ↔
    s.Queues j ∨ ∃ index job, jobs[index]? = some job ∧ .job s.batches.length index = j := by
  simp only [Queues, mem_tasks_startBatch, or_and_right, exists_or]
  refine or_congr_right ⟨?_, ?_⟩
  · rintro ⟨t, ⟨index, job, hjob, rfl⟩, rfl⟩
    exact ⟨index, job, hjob, (by_jobTask _ _ _).owner.symm⟩
  · rintro ⟨index, job, hjob, rfl⟩
    exact ⟨_, ⟨index, job, hjob, rfl⟩, (by_jobTask _ _ _).owner⟩

/-- Whoever starts jobs stands behind them, and they stand in the queue. -/
theorem stands_startBatch (hby : ∀ rs, (k rs).By i) {x : Station}
    (hx : (s.startBatch jobs k).Stands j x) : s.Stands j x ∨
      (i = j ∧ x = .batch s.batches.length k) ∨
      ∃ index job, jobs[index]? = some job ∧ .job s.batches.length index = j ∧
        x = .queue (jobTask s.batches.length index job) := by
  cases x with
  | nowhere | running => exact absurd hx id
  | queue t =>
    obtain ⟨ht, rfl⟩ := hx
    rcases mem_tasks_startBatch.1 ht with ht | ⟨index, job, hjob, rfl⟩
    · exact .inl ⟨ht, rfl⟩
    · exact .inr (.inr ⟨index, job, hjob, (by_jobTask _ _ _).owner.symm, rfl⟩)
  | lock l t =>
    rw [startBatch_eq] at hx
    exact .inl hx
  | child n x | asleep n t =>
    rw [startBatch_eq] at hx
    exact .inl hx
  | batch n resume =>
    obtain ⟨⟨x, hget, hnoted, rfl⟩, hby'⟩ := hx
    rw [getElem?_batches_startBatch] at hget
    split at hget
    · next hn =>
      cases hget
      exact .inr (.inl ⟨(hby []).owner.symm.trans (hby' []).owner, by rw [hn]⟩)
    · exact .inl ⟨⟨x, hget, hnoted, rfl⟩, hby'⟩

theorem gathers_startBatch (hby : ∀ rs, (k rs).By i) {n : Nat} :
    (s.startBatch jobs k).Gathers j n ↔
      if n = s.batches.length then jobs ≠ [] ∧ i = j else s.Gathers j n := by
  simp only [Gathers, getElem?_batches_startBatch]
  by_cases hn : n = s.batches.length
  · simp only [if_pos hn, Option.some.injEq, exists_eq_left', List.length_map,
      List.length_pos_iff]
    refine and_congr_right fun _ => ⟨fun hj => ?_, fun hij => hij ▸ hby⟩
    exact (hby []).owner.symm.trans (hj []).owner
  · simp only [if_neg hn]

theorem standing_startBatch (hby : ∀ rs, (k rs).By i) (hjobs : jobs ≠ []) :
    (s.startBatch jobs k).Standing j ↔ s.Standing j ∨ i = j ∨
      ∃ index job, jobs[index]? = some job ∧ .job s.batches.length index = j := by
  have hgathers : (∃ n, (s.startBatch jobs k).Gathers j n) ↔ (∃ n, s.Gathers j n) ∨ i = j := by
    simp only [gathers_startBatch hby]
    constructor
    · rintro ⟨n, hn⟩
      split at hn
      · exact .inr hn.2
      · exact .inl ⟨n, hn⟩
    · rintro (⟨n, hn⟩ | hij)
      · have hlt : n ≠ s.batches.length := by
          obtain ⟨x, hx, -⟩ := hn
          exact Nat.ne_of_lt (List.getElem?_eq_some_iff.1 hx).1
        exact ⟨n, by rwa [if_neg hlt]⟩
      · exact ⟨_, by rw [if_pos rfl]; exact ⟨hjobs, hij⟩⟩
  have hrest : (s.startBatch jobs k).Awaits j = s.Awaits j ∧
      (s.startBatch jobs k).Attends j = s.Attends j ∧
      (s.startBatch jobs k).Sleeps j = s.Sleeps j := by
    rw [startBatch_eq]
    exact ⟨rfl, rfl, rfl⟩
  rw [Standing, Standing, queues_startBatch, hgathers, hrest.1, hrest.2.1, hrest.2.2]
  simp only [or_assoc, or_comm, or_left_comm]

theorem slot?_startBatch (n index : Nat) : (s.startBatch jobs k).slot? n index =
    if n = s.batches.length then jobs[index]?.map fun _ => none else s.slot? n index := by
  rw [slot?, getElem?_batches_startBatch]
  split
  · rw [Option.bind_some, List.getElem?_map]
  · rfl

theorem tallied_startBatch (hs : s.Tallied) : (s.startBatch jobs k).Tallied := by
  intro n
  have hpending : (s.startBatch jobs k).pending n = s.pending n := by
    have hnone : (jobs.zipIdx.map fun x => (Ready.task
        (jobTask s.batches.length x.2 x.1) : Ready Reply)).filterMap Ready.batch? = [] := by
      rw [List.filterMap_map]
      exact List.filterMap_eq_nil_iff.2 fun _ _ => rfl
    rw [startBatch_eq, pending, List.filterMap_append, hnone, List.append_nil]
    rfl
  have hn := hs n
  rw [hpending]
  simp only [noted, given, getElem?_batches_startBatch] at hn ⊢
  split
  · next heq =>
    subst heq
    simp only [List.getElem?_eq_none (Nat.le_refl _), Option.elim_none] at hn
    have hzero : (jobs.map fun _ => (none : Option (Except Fault CheckResult))).countP
        Option.isSome = 0 := by simp
    simp only [Option.elim_some, hzero]
    exact hn
  · exact hn

end StartBatch

section NoteJob

variable {batch : Nat} {rest : List (Ready Reply)}

theorem slot?_noteJob (n index : Nat) : (s.noteJob batch).slot? n index = s.slot? n index := by
  rw [noteJob]
  split
  · rfl
  · next x hx =>
    have hset : ({ s with batches := s.batches.set batch { x with noted := x.noted + 1 } } :
        Session Reply).slot? n index = s.slot? n index := by
      simp only [slot?, List.getElem?_set]
      split
      · next hn =>
        subst hn
        rw [if_pos (List.getElem?_eq_some_iff.1 hx).1, hx]
        rfl
      · rfl
    dsimp only
    split <;> exact hset

/-- The first note in the queue is about a batch of which not all have been noted. -/
theorem Tallied.noted_lt (hs : s.Tallied) (hready : s.ready = .jobEnded batch :: rest) :
    ∃ x, s.batches[batch]? = some x ∧ x.noted < x.results.length := by
  have hn := hs batch
  have hpending : s.pending batch = (rest.filterMap Ready.batch?).count batch + 1 := by
    simp [pending, hready, Ready.batch?]
  rw [hpending, noted, given] at hn
  cases hx : s.batches[batch]? with
  | none =>
    rw [hx, Option.elim_none, Option.elim_none] at hn
    omega
  | some x =>
    rw [hx, Option.elim_some, Option.elim_some] at hn
    have hle := List.countP_le_length (p := Option.isSome) (l := x.results)
    exact ⟨x, rfl, by omega⟩

theorem tallied_noteJob (hs : s.Tallied) (hready : s.ready = .jobEnded batch :: rest) :
    (({ s with ready := rest } : Session Reply).noteJob batch).Tallied := by
  obtain ⟨x, hx, -⟩ := hs.noted_lt hready
  have hset : ∀ n, (rest.filterMap Ready.batch?).count n +
      (s.batches.set batch { x with noted := x.noted + 1 })[n]?.elim 0 Batch.noted =
      (s.batches.set batch { x with noted := x.noted + 1 })[n]?.elim 0 fun x =>
        x.results.countP Option.isSome := by
    intro n
    have hn := hs n
    rw [pending, hready, noted, given] at hn
    simp only [List.getElem?_set]
    split
    · next hb =>
      subst hb
      rw [if_pos (List.getElem?_eq_some_iff.1 hx).1]
      simp only [hx, Ready.batch?, List.filterMap_cons, List.count_cons_self,
        Option.elim_some] at hn ⊢
      omega
    · next hb =>
      rw [List.filterMap_cons_some (by rfl), List.count_cons_of_ne hb] at hn
      exact hn
  intro n
  rw [noteJob, show ({ s with ready := rest } : Session Reply).batches[batch]? = some x from hx]
  dsimp only
  split
  · have htask : ∀ (s : Session Reply) (t : Task Reply) (n : Nat),
        (s.enqueue (.task t)).pending n = s.pending n := by
      intro s t n
      rw [pending, enqueue, List.filterMap_append, List.filterMap_cons_none (by rfl),
        List.filterMap_nil, List.append_nil, pending]
    rw [htask]
    exact hset n
  · exact hset n

/-- Behind the last note, whoever stands behind the batch comes into the queue. -/
theorem standing_noteJob {x : Batch Reply} {i : TaskId} (hx : s.batches[batch]? = some x)
    (hnoted : x.noted < x.results.length) (hby : ∀ rs, (x.resume rs).By i) :
    (s.noteJob batch).Standing j ↔ s.Standing j := by
  have hself : s.Gathers j batch ↔ i = j := by
    constructor
    · rintro ⟨y, hy, -, hby'⟩
      obtain rfl := Option.some.inj (hx.symm.trans hy)
      exact (hby []).owner.symm.trans (hby' []).owner
    · rintro rfl
      exact ⟨x, hx, hnoted, hby⟩
  have hset : ∀ n, ({ s with batches := s.batches.set batch { x with noted := x.noted + 1 } } :
      Session Reply).Gathers j n ↔
        if batch = n then x.noted + 1 < x.results.length ∧ i = j else s.Gathers j n := by
    intro n
    simp only [Gathers, List.getElem?_set]
    by_cases hn : batch = n
    · subst hn
      simp only [if_true, if_pos (List.getElem?_eq_some_iff.1 hx).1, Option.some.injEq,
        exists_eq_left']
      refine and_congr_right fun _ => ⟨fun hj => ?_, fun hij => hij ▸ hby⟩
      exact (hby []).owner.symm.trans (hj []).owner
    · simp only [if_neg hn]
  have hgathers : (∃ n, ({ s with
      batches := s.batches.set batch { x with noted := x.noted + 1 } } :
        Session Reply).Gathers j n) ∨ x.noted + 1 = x.results.length ∧ i = j ↔
          ∃ n, s.Gathers j n := by
    simp only [hset]
    constructor
    · rintro (⟨n, hn⟩ | ⟨-, hij⟩)
      · split at hn
        · exact ⟨batch, hself.2 hn.2⟩
        · exact ⟨n, hn⟩
      · exact ⟨batch, hself.2 hij⟩
    · rintro ⟨n, hn⟩
      by_cases hb : batch = n
      · subst hb
        have hij := hself.1 hn
        by_cases hlast : x.noted + 1 = x.results.length
        · exact .inr ⟨hlast, hij⟩
        · exact .inl ⟨batch, by rw [if_pos rfl]; exact ⟨by omega, hij⟩⟩
      · exact .inl ⟨n, by rwa [if_neg hb]⟩
  rw [noteJob, hx]
  dsimp only
  split
  · next hlast =>
    simp only [hlast, true_and] at hgathers
    rw [standing_enqueue, (hby _).owner, Standing, Standing, ← hgathers]
    rw [← hlast]
    show (s.Queues j ∨ s.Awaits j ∨ s.Attends j ∨ s.Sleeps j ∨ _) ∨ i = j ↔ _
    simp only [or_assoc]
  · next hlast =>
    simp only [hlast, false_and, or_false] at hgathers
    rw [Standing, Standing, hgathers]
    rfl

end NoteJob

/-- A session in which nobody is lost: all ends of jobs are accounted for, nobody waits for a lock
that is free, child processes and pauses have numbers of their own, and jobs wait behind later
batches only. -/
structure Orderly (s : Session Reply) : Prop where
  tallied : s.Tallied
  free : ∀ l, (s.lock l).held = false → (s.lock l).waiting = []
  calls : ∀ n x, s.held.get? n = some x → n < s.calls.length
  pauses : ∀ n t, s.asleep.get? n = some t → n < s.pauses
  order : ∀ batch index n, s.Gathers (.job batch index) n → batch < n

namespace Orderly

variable {batch index : Nat} {i : TaskId}

/-- Notes and batches stay as they are. -/
theorem congr (hs : s.Orderly)
    (hnotes : s'.ready.filterMap Ready.batch? = s.ready.filterMap Ready.batch?)
    (hfree : ∀ l, (s'.lock l).held = false → (s'.lock l).waiting = [])
    (hcalls : ∀ n x, s'.held.get? n = some x → n < s'.calls.length)
    (hpauses : ∀ n t, s'.asleep.get? n = some t → n < s'.pauses)
    (hbatches : s'.batches = s.batches) : s'.Orderly where
  tallied n := by
    simp only [pending, noted, given, hnotes, hbatches]
    exact hs.tallied n
  free := hfree
  calls := hcalls
  pauses := hpauses
  order batch index n hg := by
    refine hs.order batch index n ?_
    rw [Gathers, hbatches] at hg
    exact hg

theorem enqueue (hs : s.Orderly) (t : Task Reply) : (s.enqueue (.task t)).Orderly :=
  hs.congr (by simp [Session.enqueue, Ready.batch?]) hs.free hs.calls hs.pauses rfl

theorem setLock (hs : s.Orderly) {y : Lock Reply} (hy : y.held = false → y.waiting = []) :
    (s.setLock l y).Orderly := by
  refine hs.congr rfl (fun l' hl' => ?_) hs.calls hs.pauses rfl
  rw [lock_setLock] at hl' ⊢
  split at hl'
  · next hl => rw [if_pos hl, hy hl']
  · next hl => rw [if_neg hl, hs.free l' hl']

theorem giveBack (hs : s.Orderly) : (s.free l).Orderly := by
  rw [Session.free]
  split
  · exact hs.setLock fun _ => rfl
  · exact (hs.setLock (by simp)).enqueue _

theorem finish (hs : s.Orderly) {f : Finished Reply}
    (hf : ∀ batch index r, f = .job batch index r → s.slot? batch index = some none) :
    (s.finish f).Orderly := by
  cases f with
  | host step r => exact hs.congr rfl hs.free hs.calls hs.pauses rfl
  | job batch index r =>
    exact ⟨tallied_finish hs.tallied (hf batch index r rfl), hs.free, hs.calls, hs.pauses,
      fun batch index n hg => hs.order batch index n ((gathers_finish _ n).1 hg)⟩

theorem lieDown (hs : s.Orderly) (t : Task Reply) : (s.lieDown t).Orderly := by
  refine hs.congr rfl hs.free hs.calls (fun n t' ht' => ?_) rfl
  replace ht' := (Assoc.get?_insert _ _ _ _).symm.trans ht'
  split at ht'
  · next hn => exact hn ▸ Nat.lt_succ_self s.pauses
  · exact Nat.lt_succ_of_lt (hs.pauses n t' ht')

theorem startBatch (hs : s.Orderly) {jobs : List Job}
    {k : List (Except Fault CheckResult) → Task Reply} (hby : ∀ rs, (k rs).By i)
    (hi : ∀ batch index, i = .job batch index → batch < s.batches.length) :
    (s.startBatch jobs k).Orderly where
  tallied := tallied_startBatch hs.tallied
  free := by
    rw [startBatch_eq]
    exact hs.free
  calls := by
    rw [startBatch_eq]
    exact hs.calls
  pauses := by
    rw [startBatch_eq]
    exact hs.pauses
  order batch index n hg := by
    rw [gathers_startBatch hby] at hg
    split at hg
    · next hn => exact hn ▸ hi batch index hg.2
    · exact hs.order batch index n hg

theorem noteJob (hs : s.Orderly) {rest : List (Ready Reply)}
    (hready : s.ready = .jobEnded batch :: rest) :
    (({ s with ready := rest } : Session Reply).noteJob batch).Orderly := by
  obtain ⟨x, hx, -⟩ := hs.tallied.noted_lt hready
  have hsession : ({ s with ready := rest } : Session Reply).noteJob batch =
      if x.noted + 1 = x.results.length then
        ({ s with ready := rest, batches := s.batches.set batch { x with noted := x.noted + 1 } } :
          Session Reply).enqueue (.task (x.resume (x.results.filterMap id)))
      else
        { s with
          ready := rest
          batches := s.batches.set batch { x with noted := x.noted + 1 } } := by
    rw [Session.noteJob, show ({ s with ready := rest } : Session Reply).batches[batch]? = some x
      from hx]
  have hlock : ∀ l, (({ s with ready := rest } : Session Reply).noteJob batch).lock l =
      s.lock l := by
    intro l
    rw [hsession]
    split <;> rfl
  have hrest : (({ s with ready := rest } : Session Reply).noteJob batch).held = s.held ∧
      (({ s with ready := rest } : Session Reply).noteJob batch).calls = s.calls ∧
      (({ s with ready := rest } : Session Reply).noteJob batch).asleep = s.asleep ∧
      (({ s with ready := rest } : Session Reply).noteJob batch).pauses = s.pauses ∧
      (({ s with ready := rest } : Session Reply).noteJob batch).batches =
        s.batches.set batch { x with noted := x.noted + 1 } := by
    rw [hsession]
    split <;> exact ⟨rfl, rfl, rfl, rfl, rfl⟩
  obtain ⟨hheld, hcalls, hasleep, hpauses, hbatches⟩ := hrest
  refine ⟨tallied_noteJob hs.tallied hready, fun l hl => ?_, fun n y hy => ?_, fun n t ht => ?_,
    fun batch' index n hg => ?_⟩
  · rw [hlock] at hl ⊢
    exact hs.free l hl
  · rw [hcalls]
    exact hs.calls n y (hheld ▸ hy)
  · rw [hpauses]
    exact hs.pauses n t (hasleep ▸ ht)
  · obtain ⟨y, hy, hnoted, hby⟩ := hg
    rw [hbatches, List.getElem?_set] at hy
    split at hy
    · next hn =>
      subst hn
      split at hy
      · cases hy
        exact hs.order batch' index batch ⟨x, hx, Nat.lt_of_succ_lt hnoted, hby⟩
      · exact absurd hy (by simp)
    · exact hs.order batch' index n ⟨y, hy, hnoted, hby⟩

end Orderly

end Session

end Overseer
