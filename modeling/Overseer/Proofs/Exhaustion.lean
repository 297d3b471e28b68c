import Mathlib.Logic.Hydra
import Overseer.Proofs.Waits
import Overseer.Proofs.Whereabouts

set_option autoImplicit false

/-! # Coming to rest

Every session comes to rest: nothing can be taken from the queue for ever, in whatever order child
processes end and pauses are over.

All that is still to be done in a session is a multiset of chores (`Session.stock`): tasks that go
on, child processes that end, batches whose jobs are noted, and notes. Whatever is taken, chores are
replaced by some that come of them (`Chore.ComesOf`). As jobs start no jobs, there is an end to what
comes of a chore, and so there is one to all of it, as in the hydra game. -/

namespace Overseer

open Relation

/-! ## What is still to be done -/

theorem Session.asks_jobTask (batch index : Nat) (job : Job) :
    (jobTask batch index job : Task Reply).Asks 3 :=
  job.asks_operation.run.bind (m := 0) fun _ => trivial

/-- Something that is still to be done. -/
inductive Chore where
  /-- A task goes on. -/
  | task (t : Task Reply)
  /-- A child process ends. -/
  | child (resume : Except Fault Ended → Task Reply)
  /-- All jobs of a batch have been noted. -/
  | batch (resume : List (Except Fault CheckResult) → Task Reply)
  /-- The end of a job is noted. -/
  | note

namespace Chore

/-- When a chore has been done, others come of it. A task that has not ended leaves the rest of it,
or what it waits for. -/
inductive ComesOf : Chore → Chore → Prop
  | ended (f : Finished Reply) : ComesOf .note (.task (.done f))
  | read (k : State → Task Reply) (s : State) : ComesOf (.task (k s)) (.task (.read k))
  | written (s : State) (k : Task Reply) : ComesOf (.task k) (.task (.write s k))
  | returned (c : Call) (k : Except Fault Ended → Task Reply) (e : Except Fault Ended) :
    ComesOf (.task (k e)) (.task (.spawn c k))
  | spawned (c : Call) (k : Except Fault Ended → Task Reply) :
    ComesOf (.child k) (.task (.spawn c k))
  | answered (k : Except Fault Ended → Task Reply) (e : Except Fault Ended) :
    ComesOf (.task (k e)) (.child k)
  | slept (ms : Int) (k : Task Reply) : ComesOf (.task k) (.task (.sleep ms k))
  | entered (l : Nat) (k : Task Reply) : ComesOf (.task k) (.task (.lock l k))
  | left (l : Nat) (k : Task Reply) : ComesOf (.task k) (.task (.unlock l k))
  | passed (jobs : List Job) (k : List (Except Fault CheckResult) → Task Reply)
    (rs : List (Except Fault CheckResult)) : ComesOf (.task (k rs)) (.task (.gather jobs k))
  | started (jobs : List Job) (k : List (Except Fault CheckResult) → Task Reply)
    (batch index : Nat) (job : Job) :
    ComesOf (.task (Session.jobTask batch index job)) (.task (.gather jobs k))
  | gathered (jobs : List Job) (k : List (Except Fault CheckResult) → Task Reply) :
    ComesOf (.batch k) (.task (.gather jobs k))
  | noted (k : List (Except Fault CheckResult) → Task Reply)
    (rs : List (Except Fault CheckResult)) : ComesOf (.task (k rs)) (.batch k)

theorem acc_note : Acc ComesOf note := ⟨_, nofun⟩

theorem acc_child {k : Except Fault Ended → Task Reply} (h : ∀ e, Acc ComesOf (task (k e))) :
    Acc ComesOf (child k) := by
  refine ⟨_, fun x hx => ?_⟩
  cases hx
  exact h _

theorem acc_batch {k : List (Except Fault CheckResult) → Task Reply}
    (h : ∀ rs, Acc ComesOf (task (k rs))) : Acc ComesOf (batch k) := by
  refine ⟨_, fun x hx => ?_⟩
  cases hx
  exact h _

/-- There is an end to what comes of a task, if there is one to what comes of the jobs that it may
start. -/
theorem acc_task {t : Task Reply} {n : Nat}
    (ht : t.Asks n ∨ ∀ batch index job, Acc ComesOf (task (Session.jobTask batch index job))) :
    Acc ComesOf (task t) := by
  induction t generalizing n with
  | done f =>
    refine ⟨_, fun x hx => ?_⟩
    cases hx
    exact acc_note
  | read k ih =>
    refine ⟨_, fun x hx => ?_⟩
    cases hx with
    | read _ s => exact ih s (ht.imp_left (· s))
  | write s k ih | unlock l k ih =>
    refine ⟨_, fun x hx => ?_⟩
    cases hx
    exact ih ht
  | sleep ms k ih | lock l k ih =>
    refine ⟨_, fun x hx => ?_⟩
    cases hx
    exact ih (ht.imp_left And.right)
  | spawn c k ih =>
    have hk : ∀ e, Acc ComesOf (task (k e)) := fun e => ih e (ht.imp_left (· e))
    refine ⟨_, fun x hx => ?_⟩
    cases hx with
    | returned _ _ e => exact hk e
    | spawned => exact acc_child hk
  | gather jobs k ih =>
    have hjobs := ht.resolve_left id
    have hk : ∀ rs, Acc ComesOf (task (k rs)) := fun rs => ih rs (n := 0) (.inr hjobs)
    refine ⟨_, fun x hx => ?_⟩
    cases hx with
    | passed _ _ rs => exact hk rs
    | started _ _ batch index job => exact hjobs batch index job
    | gathered => exact acc_batch hk

theorem wellFounded_comesOf : WellFounded ComesOf := by
  have hjobs : ∀ batch index job, Acc ComesOf (task (Session.jobTask batch index job)) :=
    fun batch index job => acc_task (.inl (Session.asks_jobTask batch index job))
  refine ⟨fun x => ?_⟩
  cases x with
  | task t => exact acc_task (n := 0) (.inr hjobs)
  | child k => exact acc_child fun _ => acc_task (n := 0) (.inr hjobs)
  | batch k => exact acc_batch fun _ => acc_task (n := 0) (.inr hjobs)
  | note => exact acc_note

/-! ### Chores are used up -/

/-- There is less to be done: chores have been done, and others have come of them. -/
def Less (m' m : Multiset Chore) : Prop := TransGen (CutExpand ComesOf) m' m

theorem wellFounded_less : WellFounded Less := wellFounded_comesOf.cutExpand.transGen

theorem Less.trans {m₁ m₂ m₃ : Multiset Chore} (h : Less m₁ m₂) (h' : Less m₂ m₃) : Less m₁ m₃ :=
  TransGen.trans h h'

/-- A chore has been done, and nothing more is to be done than what comes of it. -/
theorem Less.of_le {m' m t : Multiset Chore} {x : Chore} (hle : m' ≤ m + t)
    (ht : ∀ y ∈ t, y.ComesOf x) : Less m' (m + {x}) := by
  obtain ⟨u, hu⟩ := Multiset.le_iff_exists_add.1 hle
  have hcut : CutExpand ComesOf (m' + u) (m + {x}) :=
    hu ▸ (cutExpand_add_left m).2 (cutExpand_singleton ht)
  refine TransGen.tail' ?_ hcut
  clear hu hcut
  induction u using Multiset.induction with
  | empty => rw [add_zero]
  | cons y u ih =>
    refine ih.tail ?_
    have hdrop : CutExpand ComesOf (m' + u + 0) (m' + u + {y}) :=
      (cutExpand_add_left _).2 cutExpand_zero
    rwa [add_zero, add_assoc, add_comm u, Multiset.singleton_add] at hdrop

theorem Less.one {m' m : Multiset Chore} {x y : Chore} (hle : m' ≤ m + {y}) (hy : y.ComesOf x) :
    Less m' (m + {x}) := .of_le hle fun _ hz => Multiset.mem_singleton.1 hz ▸ hy

end Chore

/-! ## The stock of a session -/

theorem sum_map_set {α M : Type} [AddCommMonoid M] {l : List α} {i : Nat} {x : α}
    (hx : l[i]? = some x) (y : α) (f : α → M) :
    ((l.set i y).map f).sum + f x = (l.map f).sum + f y := by
  obtain ⟨hi, rfl⟩ := List.getElem?_eq_some_iff.1 hx
  obtain ⟨l₁, l₂, hl, -, hset⟩ : ∃ l₁ l₂, l = l₁ ++ l[i] :: l₂ ∧ l₁.length = i ∧
      l.set i y = l₁ ++ y :: l₂ := List.exists_of_set hi
  generalize l[i] = x at hl
  rw [hset, hl]
  simp only [List.map_append, List.map_cons, List.sum_append, List.sum_cons]
  abel

/-- What stands in the queue is a chore. -/
def Ready.chore : Ready Reply → Chore
  | task t => .task t
  | jobEnded _ => .note

/-- The chores of those who wait for a lock. -/
def Lock.chores (l : Lock Reply) : Multiset Chore := l.waiting.map Chore.task

/-- The chores of a batch whose jobs have not all been noted. -/
def Batch.chores (b : Batch Reply) : Multiset Chore :=
  if b.noted < b.results.length then {.batch b.resume} else 0

namespace Session

variable {s : Session Reply}

/-- All that is still to be done in a session. -/
def stock (s : Session Reply) : Multiset Chore :=
  s.ready.map Ready.chore + (s.locks.values.map Lock.chores).sum +
    (s.held.values.map fun h => {.child h.resume}).sum +
      (s.asleep.values.map fun t => {.task t}).sum + (s.batches.map Batch.chores).sum

theorem stock_enqueue (s : Session Reply) (r : Ready Reply) :
    (s.enqueue r).stock = s.stock + {r.chore} := by
  simp only [stock, enqueue, List.map_append, List.map_cons, List.map_nil, ← Multiset.coe_add,
    Multiset.coe_singleton]
  abel

theorem stock_dequeue {r : Ready Reply} {rest : List (Ready Reply)} (hready : s.ready = r :: rest) :
    s.stock = ({ s with ready := rest } : Session Reply).stock + {r.chore} := by
  simp only [stock, hready, List.map_cons, ← Multiset.cons_coe, ← Multiset.singleton_add]
  abel

theorem stock_setLock (s : Session Reply) (l : Nat) (x : Lock Reply) :
    (s.setLock l x).stock + (s.lock l).chores = s.stock + x.chores := by
  have hsum := s.locks.sum_insert l x Lock.chores
  have hlock : (s.locks.get? l).elim 0 Lock.chores = (s.lock l).chores := by
    rw [lock]
    cases s.locks.get? l <;> rfl
  rw [hlock] at hsum
  simp only [stock, setLock]
  calc
    _ = s.ready.map Ready.chore +
        (((s.locks.insert l x).values.map Lock.chores).sum + (s.lock l).chores) +
        (s.held.values.map fun h => {.child h.resume}).sum +
        (s.asleep.values.map fun t => {.task t}).sum + (s.batches.map Batch.chores).sum := by
      abel
    _ = _ := by
      rw [hsum]
      abel

/-- Nothing is added by taking a lock, whoever waits for it. -/
theorem stock_enter_le (s : Session Reply) (l : Nat) :
    (s.setLock l ⟨true, []⟩).stock ≤ s.stock := by
  have hlock := s.stock_setLock l ⟨true, []⟩
  exact Multiset.le_iff_exists_add.2 ⟨_, ((add_zero s.stock).symm.trans hlock.symm)⟩

theorem stock_await (s : Session Reply) (l : Nat) (t : Task Reply) :
    (s.await l t).stock = s.stock + {.task t} := by
  have hlock := s.stock_setLock l { s.lock l with waiting := (s.lock l).waiting ++ [t] }
  have hchores : Lock.chores { s.lock l with waiting := (s.lock l).waiting ++ [t] } =
      {.task t} + (s.lock l).chores := by
    rw [Lock.chores, List.map_append, ← Multiset.coe_add, add_comm]
    rfl
  rw [hchores, ← add_assoc] at hlock
  exact add_right_cancel hlock

theorem stock_free (s : Session Reply) (l : Nat) : (s.free l).stock = s.stock := by
  rw [free]
  split
  · next hwaiting =>
    have hlock := s.stock_setLock l {}
    rw [Lock.chores, hwaiting] at hlock
    exact add_right_cancel hlock
  · next t rest hwaiting =>
    have hlock := s.stock_setLock l ⟨true, rest⟩
    have hchores : (s.lock l).chores = {.task t} + Lock.chores ⟨true, rest⟩ := by
      rw [Lock.chores, hwaiting]
      rfl
    rw [hchores, ← add_assoc] at hlock
    rw [stock_enqueue]
    exact add_right_cancel hlock

theorem stock_hold_le (s : Session Reply) (n : Nat) (x : HeldCall Reply) :
    ({ s with held := s.held.insert n x } : Session Reply).stock ≤
      s.stock + {.child x.resume} := by
  have hsum := s.held.sum_insert n x fun h => ({Chore.child h.resume} : Multiset Chore)
  have hle := Multiset.le_iff_exists_add.2 ⟨_, hsum.symm⟩
  simp only [stock]
  calc
    _ ≤ s.ready.map Ready.chore + (s.locks.values.map Lock.chores).sum +
        ((s.held.values.map fun h => {.child h.resume}).sum + {.child x.resume}) +
        (s.asleep.values.map fun t => {.task t}).sum + (s.batches.map Batch.chores).sum := by
      gcongr
    _ = _ := by abel

theorem stock_lieDown_le (s : Session Reply) (t : Task Reply) :
    (s.lieDown t).stock ≤ s.stock + {.task t} := by
  have hsum := s.asleep.sum_insert s.pauses t fun t => ({Chore.task t} : Multiset Chore)
  have hle := Multiset.le_iff_exists_add.2 ⟨_, hsum.symm⟩
  simp only [stock, lieDown]
  calc
    _ ≤ s.ready.map Ready.chore + (s.locks.values.map Lock.chores).sum +
        (s.held.values.map fun h => {.child h.resume}).sum +
        ((s.asleep.values.map fun t => {.task t}).sum + {.task t}) +
        (s.batches.map Batch.chores).sum := by
      gcongr
    _ = _ := by abel

theorem stock_rouse {n : Nat} {t : Task Reply} (ht : s.asleep.get? n = some t) :
    s.stock = ({ s with asleep := s.asleep.erase n } : Session Reply).stock + {.task t} := by
  have hsum := s.asleep.sum_erase n fun t => ({Chore.task t} : Multiset Chore)
  rw [ht, Option.elim_some] at hsum
  simp only [stock, ← hsum]
  abel

theorem stock_release {n : Nat} {x : HeldCall Reply} (hx : s.held.get? n = some x)
    (state : State) :
    s.stock = ({ s with held := s.held.erase n, state } : Session Reply).stock +
      {.child x.resume} := by
  have hsum := s.held.sum_erase n fun h => ({Chore.child h.resume} : Multiset Chore)
  rw [hx, Option.elim_some] at hsum
  simp only [stock, ← hsum]
  abel

theorem stock_setBatch {n : Nat} {x : Batch Reply} (hx : s.batches[n]? = some x)
    (y : Batch Reply) :
    ({ s with batches := s.batches.set n y } : Session Reply).stock + x.chores =
      s.stock + y.chores := by
  have hsum := sum_map_set hx y Batch.chores
  simp only [stock]
  rw [add_assoc, hsum, ← add_assoc]

theorem stock_finish_le (s : Session Reply) (f : Finished Reply) :
    (s.finish f).stock ≤ s.stock + {.note} := by
  cases f with
  | host step r => exact Multiset.le_add_right _ _
  | job batch index r =>
    rw [finish, stock_enqueue]
    refine le_of_eq (congrArg (· + _) ?_)
    cases hx : s.batches[batch]? with
    | none => rw [List.modify_eq_set_getElem?, hx]; rfl
    | some x =>
      rw [List.modify_eq_set_getElem?, hx]
      have hset := stock_setBatch hx { x with results := x.results.set index (some r) }
      have hchores : Batch.chores { x with results := x.results.set index (some r) } =
          x.chores := by
        simp only [Batch.chores, List.length_set]
      rw [hchores] at hset
      exact add_right_cancel hset

theorem stock_startBatch (s : Session Reply) (jobs : List Job)
    (k : List (Except Fault CheckResult) → Task Reply) :
    ∃ t : Multiset Chore, (∀ x ∈ t, x.ComesOf (.task (.gather jobs k))) ∧
      t.card ≤ jobs.length + 1 ∧ (s.startBatch jobs k).stock = s.stock + t := by
  refine ⟨(jobs.zipIdx.map fun x => Chore.task (jobTask s.batches.length x.2 x.1)) +
    Batch.chores ⟨jobs.map fun _ => none, 0, k⟩, fun x hx => ?_, ?_, ?_⟩
  · rw [Multiset.mem_add, Multiset.mem_coe, List.mem_map] at hx
    obtain ⟨j, -, rfl⟩ | hx := hx
    · exact .started jobs k _ _ _
    · rw [Batch.chores] at hx
      split at hx
      · rw [Multiset.mem_singleton.1 hx]
        exact .gathered jobs k
      · exact absurd hx (Multiset.notMem_zero x)
  · have hbatch : (Batch.chores ⟨jobs.map fun _ => none, 0, k⟩).card ≤ 1 := by
      rw [Batch.chores]
      split <;> simp
    simpa using hbatch
  · have hchore : (Ready.chore ∘ fun x : Job × Nat =>
        Ready.task (jobTask s.batches.length x.2 x.1)) =
        fun x => Chore.task (jobTask s.batches.length x.2 x.1) := rfl
    rw [startBatch_eq]
    simp only [stock, List.map_append, List.map_map, List.map_cons, List.map_nil, List.sum_append,
      List.sum_cons, List.sum_nil, add_zero, ← Multiset.coe_add, hchore]
    abel

/-- A task that is run is used up. -/
theorem less_run (t : Task Reply) (s : Session Reply) :
    Chore.Less (s.run t).stock (s.stock + {.task t}) := by
  induction t generalizing s with
  | done f => exact .one (stock_finish_le s f) (.ended f)
  | read k ih => exact (ih s.state s).trans (.one le_rfl (.read k s.state))
  | write s' k ih => exact (ih { s with state := s' }).trans (.one le_rfl (.written s' k))
  | spawn c k ih =>
    simp only [run]
    cases (Behaviour.take c s.script).1.fault? with
    | some fault => exact (ih (.error fault) _).trans (.one le_rfl (.returned c k _))
    | none =>
      simp only
      split
      · exact .one (stock_hold_le _ _ _) (.spawned c k)
      · exact (ih (.ok _) _).trans (.one le_rfl (.returned c k _))
  | sleep ms k => exact .one (stock_lieDown_le s k) (.slept ms k)
  | lock l k ih =>
    rw [run]
    split
    · exact .one (stock_await s l k).le (.entered l k)
    · have hle := add_le_add_left (s.stock_enter_le l) {Chore.task k}
      exact (ih _).trans (.one hle (.entered l k))
  | unlock l k ih =>
    have hrun := ih (s.free l)
    rw [stock_free] at hrun
    exact hrun.trans (.one le_rfl (.left l k))
  | gather jobs k ih =>
    rw [run]
    split
    · exact (ih [] s).trans (.one le_rfl (.passed jobs k []))
    · obtain ⟨t, ht, -, hstock⟩ := s.stock_startBatch jobs k
      exact .of_le hstock.le ht

/-- When the end of a job is noted, nothing is left to do for it, or its batch goes on. -/
theorem stock_noteJob (s : Session Reply) (batch : Nat) :
    (s.noteJob batch).stock ≤ s.stock ∨ ∃ m k rs, s.stock = m + {.batch k} ∧
      (s.noteJob batch).stock = m + {.task (k rs)} := by
  rw [noteJob]
  cases hx : s.batches[batch]? with
  | none => exact .inl le_rfl
  | some x =>
    have hset := stock_setBatch hx { x with noted := x.noted + 1 }
    dsimp only
    split
    · next hlast =>
      have hbefore : x.chores = {.batch x.resume} := if_pos (by omega)
      have hbehind : Batch.chores { x with noted := x.noted + 1 } = 0 :=
        if_neg (Nat.not_lt.2 hlast.ge)
      rw [hbefore, hbehind, add_zero] at hset
      exact .inr ⟨_, x.resume, x.results.filterMap id, hset.symm, stock_enqueue _ _⟩
    · next hmore =>
      have hsame : Batch.chores { x with noted := x.noted + 1 } = x.chores := by
        refine if_congr ?_ rfl rfl
        show x.noted + 1 < x.results.length ↔ x.noted < x.results.length
        omega
      rw [hsame] at hset
      exact .inl (add_right_cancel hset).le

/-- A task that is woken is used up. -/
theorem less_wake {n : Nat} {t : Task Reply} (ht : s.asleep.get? n = some t) :
    Chore.Less (s.wake n).stock s.stock := by
  rw [wake, ht, stock_rouse ht]
  exact less_run t _

/-- A note is used up. -/
theorem less_noteJob (s : Session Reply) (batch : Nat) :
    Chore.Less (s.noteJob batch).stock (s.stock + {.note}) := by
  have hnote : ∀ {m : Multiset Chore}, m ≤ s.stock → Chore.Less m (s.stock + {.note}) :=
    fun hm => .of_le (t := 0) (by rwa [add_zero]) (by simp)
  obtain hle | ⟨m, k, rs, hm, hlast⟩ := s.stock_noteJob batch
  · exact hnote hle
  · rw [hlast]
    exact (Chore.Less.one le_rfl (.noted k rs)).trans (hnote hm.ge)

theorem less_takeReady (s : Session Reply) (r : Ready Reply) :
    Chore.Less (s.takeReady r).stock (s.stock + {r.chore}) := by
  cases r with
  | task t => exact less_run t s
  | jobEnded batch => exact less_noteJob s batch

end Session

/-! ## Coming to rest -/

namespace Chronicle

/-- The scheduler has something to take, a child process can end, or a pause can be over. -/
def Move.Serves (c : Chronicle) : Move → Prop
  | take => c.session.ready ≠ []
  | release n => ∃ x, c.session.held.get? n = some x
  | wake n => ∃ t, c.session.asleep.get? n = some t
  | request _ | respond _ | world _ => False

/-- Whatever is taken, whatever child process ends and whatever pause is over, there is less to be
done then. -/
theorem less_step {c : Chronicle} {m : Move} (hm : m.Serves c) :
    Chore.Less (c.step m).session.stock c.session.stock := by
  cases m with
  | request _ | respond _ | world _ => exact absurd hm id
  | take =>
    rw [step]
    cases hready : c.session.ready with
    | nil => exact absurd hready hm
    | cons r rest =>
      rw [Session.stock_dequeue hready]
      exact (congrArg (Chore.Less · _) (congrArg _ (session_takeReady _ r))).mpr
        (Session.less_takeReady _ r)
  | release n =>
    obtain ⟨x, hx⟩ := hm
    rw [step, hx, Session.stock_release hx]
    exact .one (Session.stock_enqueue _ _).le (.answered x.resume _)
  | wake n =>
    obtain ⟨t, ht⟩ := hm
    rw [step, session_wake]
    exact Session.less_wake ht

/-- Nobody can be served for ever, in whatever order this is done. -/
theorem wellFounded_step :
    WellFounded fun c' c : Chronicle => ∃ m : Move, m.Serves c ∧ c' = c.step m := by
  refine Subrelation.wf (r := fun c' c : Chronicle => Chore.Less c'.session.stock c.session.stock)
    ?_ (InvImage.wf _ Chore.wellFounded_less)
  rintro c' c ⟨m, hm, rfl⟩
  exact less_step hm

theorem exists_serves {c : Chronicle} (hc : c.session.isIdle = false) :
    ∃ m : Move, m.Serves c := by
  rw [Session.isIdle, Bool.and_eq_false_iff, Bool.and_eq_false_iff] at hc
  obtain (hready | hheld) | hasleep := hc
  · have hready : c.session.ready ≠ [] := by simpa using hready
    exact ⟨.take, hready⟩
  · obtain ⟨n, hn⟩ := List.exists_mem_of_ne_nil _ (by simpa using hheld)
    refine ⟨.release n, Option.ne_none_iff_exists'.1 fun hnone => ?_⟩
    exact (Assoc.get?_eq_none_iff _ _).1 hnone hn
  · obtain ⟨n, hn⟩ := List.exists_mem_of_ne_nil _ (by simpa using hasleep)
    refine ⟨.wake n, Option.ne_none_iff_exists'.1 fun hnone => ?_⟩
    exact (Assoc.get?_eq_none_iff _ _).1 hnone hn

/-- Every session can be brought to rest by taking what is in the queue, by letting child processes
end and by waking those who pause. -/
theorem exists_isIdle (c : Chronicle) : ∃ moves : List Move,
    (∀ m ∈ moves, m = .take ∨ ∃ n, m = .release n ∨ m = .wake n) ∧
      (moves.foldl step c).session.isIdle = true := by
  induction c using wellFounded_step.induction with
  | h c ih =>
    cases hc : c.session.isIdle with
    | true => exact ⟨[], by simp, hc⟩
    | false =>
      obtain ⟨m, hm⟩ := exists_serves hc
      obtain ⟨moves, hmoves, hidle⟩ := ih (c.step m) ⟨m, hm, rfl⟩
      refine ⟨m :: moves, List.forall_mem_cons.2 ⟨?_, hmoves⟩, hidle⟩
      cases m with
      | take => exact .inl rfl
      | release n => exact .inr ⟨n, .inl rfl⟩
      | wake n => exact .inr ⟨n, .inr rfl⟩
      | request _ | respond _ | world _ => exact absurd hm id

end Chronicle

end Overseer
