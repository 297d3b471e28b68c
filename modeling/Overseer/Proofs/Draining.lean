import Overseer.Proofs.Census
import Overseer.Proofs.Exhaustion

set_option autoImplicit false

/-! # Taking all that can be taken

When the host has asked for something or has let a child process end, the scheduler wakes whoever
pauses and takes from its queue as often as `Session.drain` says. That is often enough: whatever can
go on has gone on (`Session.Hosted.isStill`), and if no child process is underway, everything that
the host has asked for has been answered (`Session.Hosted.exists_result`).

Each chore has a weight, which bounds how often something is woken or taken from the queue until
nothing of it is left to be taken (`Chore.weight`). The weight of all chores together is less
whenever something has been woken or taken (`Session.due_wake`, `Session.due_takeReady`). As tasks
ask for one lock and two pauses at most, no chore has a weight above five, and there are not more
chores than `Session.drain` counts. The operations on all workspaces are taken up when nothing else
is in the queue, and then there is a job for each registered workspace. -/

namespace Overseer

open Chronicle Relation

/-! ## Weights -/

/-- The least number that bounds the locks and pauses a program asks for. -/
noncomputable def Prog.asked {α : Type} (p : Prog α) : Nat := sInf { n | p.Asks n }

theorem Prog.Asks.asked_le {α : Type} {p : Prog α} {n : Nat} (hp : p.Asks n) : p.asked ≤ n :=
  Nat.sInf_le hp

theorem Prog.Asks.asks_asked {α : Type} {p : Prog α} {n : Nat} (hp : p.Asks n) :
    p.Asks p.asked :=
  Nat.sInf_mem ⟨n, hp⟩

namespace Chore

/-- How often something is woken or taken from the queue at most until nothing of a chore is left to
be taken, as long as no child process ends. A task is woken or taken once, and again whenever it has
been given a lock or has paused, and the note on its end is taken. -/
noncomputable def weight : Chore → Nat
  | task t => t.asked + 2
  | child _ => 0
  | batch _ => 2
  | note => 1

/-- The weight of all chores. -/
noncomputable def weigh (m : Multiset Chore) : Nat := (m.map weight).sum

theorem weigh_add (m m' : Multiset Chore) : weigh (m + m') = weigh m + weigh m' := by
  simp [weigh]

theorem weigh_singleton (x : Chore) : weigh {x} = x.weight := by
  simp [weigh]

theorem weigh_mono {m m' : Multiset Chore} (h : m ≤ m') : weigh m ≤ weigh m' := by
  obtain ⟨u, rfl⟩ := Multiset.le_iff_exists_add.1 h
  rw [weigh_add]
  exact Nat.le_add_right _ _

/-- A chore asks for one lock and two pauses at most, and so does all that comes of it. -/
def Modest : Chore → Prop
  | task t => t.Asks 3
  | child k => ∀ e, (k e).Asks 3
  | batch k => ∀ rs, (k rs).Asks 0
  | note => True

theorem Modest.weight_le {x : Chore} (hx : x.Modest) : x.weight ≤ 5 := by
  cases x with
  | task t => exact Nat.add_le_add_right hx.asked_le 2
  | child k | batch k | note => simp [weight]

theorem Modest.comesOf {x y : Chore} (hx : x.Modest) (hy : y.ComesOf x) : y.Modest := by
  cases hy with
  | ended => exact trivial
  | read k s => exact hx s
  | returned c k e => exact hx e
  | answered k e => exact hx e
  | written | spawned | left => exact hx
  | slept ms k | entered l k => exact hx.2.mono (Nat.le_succ 2)
  | passed | started | gathered => exact absurd hx id
  | noted k rs => exact (hx rs).mono (Nat.zero_le 3)

/-- Chores that are used up leave modest ones, if all were modest. -/
theorem Less.modest {m m' : Multiset Chore} (h : Less m' m) (hm : ∀ x ∈ m, x.Modest) :
    ∀ x ∈ m', x.Modest := by
  have hone : ∀ {m m' : Multiset Chore}, CutExpand ComesOf m' m → (∀ x ∈ m, x.Modest) →
      ∀ x ∈ m', x.Modest := by
    rintro m m' ⟨t, a, ht, heq⟩ hm x hx
    -- the chore that is cut is one of the old ones, as nothing comes of itself
    have ha : a ∈ m + t := heq ▸ Multiset.mem_add.2 (.inr (Multiset.mem_singleton_self a))
    have hold : a ∈ m := (Multiset.mem_add.1 ha).resolve_right fun hnew =>
      wellFounded_comesOf.asymmetric a a (ht a hnew) (ht a hnew)
    have hx' : x ∈ m + t := heq ▸ Multiset.mem_add.2 (.inl hx)
    obtain hx' | hx' := Multiset.mem_add.1 hx'
    · exact hm x hx'
    · exact (hm a hold).comesOf (ht x hx')
  induction h with
  | single h => exact hone h hm
  | tail _ h ih => exact ih (hone h hm)

end Chore

/-! ## What is due in a session -/

namespace Session

variable {s : Session Reply} {t : Task Reply} {n : Nat}

/-- No chore asks for more than one lock and two pauses. -/
def Modest (s : Session Reply) : Prop := ∀ x ∈ s.stock, x.Modest

/-- The weight of all that is still to be done. -/
noncomputable def due (s : Session Reply) : Nat := Chore.weigh s.stock

/-- A task that is run leaves nothing but the locks and pauses that it still asks for and a note. -/
theorem due_run (ht : t.Asks n) (s : Session Reply) : (s.run t).due ≤ s.due + n + 1 := by
  induction t generalizing n s with
  | done f =>
    have hle := Chore.weigh_mono (stock_finish_le s f)
    rw [Chore.weigh_add, Chore.weigh_singleton] at hle
    exact hle.trans (by simp [due, Chore.weight])
  | read k ih => exact ih s.state (ht s.state) s
  | write s' k ih => exact ih ht { s with state := s' }
  | spawn c k ih =>
    simp only [run]
    cases (Behaviour.take c s.script).1.fault? with
    | some fault => exact ih (.error fault) (ht _) _
    | none =>
      simp only
      split
      · have hle := Chore.weigh_mono (stock_hold_le
          { s with script := (Behaviour.take c s.script).2, calls := s.calls ++ [c] } s.calls.length
          ⟨c, (Behaviour.take c s.script).1, k⟩)
        rw [Chore.weigh_add, Chore.weigh_singleton] at hle
        exact hle.trans (Nat.le_add_right_of_le (Nat.le_add_right _ n))
      · exact ih (.ok _) (ht _) _
  | sleep ms k =>
    obtain ⟨hn, hk⟩ := ht
    have hweight : (Chore.task k).weight ≤ n - 1 + 2 := Nat.add_le_add_right hk.asked_le 2
    have hle := Chore.weigh_mono (stock_lieDown_le s k)
    rw [Chore.weigh_add, Chore.weigh_singleton] at hle
    rw [run, due, due]
    omega
  | lock l k ih =>
    obtain ⟨hn, hk⟩ := ht
    rw [run]
    split
    · have hweight : (Chore.task k).weight ≤ n - 1 + 2 := Nat.add_le_add_right hk.asked_le 2
      rw [due, stock_await, Chore.weigh_add, Chore.weigh_singleton, due]
      omega
    · have hrun := ih hk (s.setLock l ⟨true, []⟩)
      have hle : (s.setLock l ⟨true, []⟩).due ≤ s.due := Chore.weigh_mono (s.stock_enter_le l)
      omega
  | unlock l k ih =>
    have hrun := ih ht (s.free l)
    rw [due, due, stock_free] at hrun
    exact hrun
  | gather jobs k => exact absurd ht id

theorem due_noteJob (hs : s.Modest) (batch : Nat) : (s.noteJob batch).due ≤ s.due := by
  obtain hle | ⟨m, k, rs, hm, hlast⟩ := s.stock_noteJob batch
  · exact Chore.weigh_mono hle
  · have hk : (k rs).asked ≤ 0 := by
      have hmodest : (Chore.batch k).Modest := hs _ (by simp [hm])
      exact (hmodest rs).asked_le
    rw [due, due, hm, hlast, Chore.weigh_add, Chore.weigh_add, Chore.weigh_singleton,
      Chore.weigh_singleton, Chore.weight, Chore.weight]
    omega

section Take

variable {r : Ready Reply} {rest : List (Ready Reply)} (hs : s.Modest)
  (hready : s.ready = r :: rest)
include hs hready

theorem modest_takeReady : (takeReady { s with ready := rest } r).Modest :=
  Chore.Less.modest (less_takeReady _ r) (stock_dequeue hready ▸ hs)

/-- Whatever is taken, less is due then. -/
theorem due_takeReady : (takeReady { s with ready := rest } r).due < s.due := by
  have hstock := stock_dequeue hready
  have hdue : s.due = ({ s with ready := rest } : Session Reply).due + r.chore.weight := by
    rw [due, hstock, Chore.weigh_add, Chore.weigh_singleton, due]
  have hmodest : ∀ x ∈ ({ s with ready := rest } : Session Reply).stock + {r.chore}, x.Modest :=
    hstock ▸ hs
  rw [hdue]
  cases r with
  | task t =>
    have ht : (Chore.task t).Modest := hmodest _ (by simp [Ready.chore])
    exact Nat.lt_succ_of_le (due_run ht.asks_asked _)
  | jobEnded batch =>
    refine Nat.lt_succ_of_le (due_noteJob (fun x hx => ?_) batch)
    exact hmodest x (Multiset.mem_add.2 (.inl hx))

end Take

section Wake

variable {pause : Nat} (hs : s.Modest) (ht : s.asleep.get? pause = some t)
include hs ht

theorem modest_wake : (s.wake pause).Modest := Chore.Less.modest (less_wake ht) hs

/-- Whoever is woken, less is due then. -/
theorem due_wake : (s.wake pause).due < s.due := by
  have hmodest : (Chore.task t).Modest := hs _ (by simp [stock_rouse ht])
  have hdue : s.due =
      ({ s with asleep := s.asleep.erase pause } : Session Reply).due + (t.asked + 2) := by
    rw [due, stock_rouse ht, Chore.weigh_add, Chore.weigh_singleton, due, Chore.weight]
  rw [hdue, wake, ht]
  exact Nat.lt_succ_of_le (due_run hmodest.asks_asked _)

end Wake

/-- Nothing can go on unless a child process ends or the host does something. -/
structure IsStill (s : Session Reply) : Prop where
  ready : s.ready = []
  asleep : s.asleep.keys = []

theorem exists_sleeper {pause : Nat} {pauses : List Nat} (hkeys : s.asleep.keys = pause :: pauses) :
    ∃ t, s.asleep.get? pause = some t := by
  refine Option.ne_none_iff_exists'.1 fun hnone => ?_
  exact (Assoc.get?_eq_none_iff _ _).1 hnone (hkeys ▸ List.mem_cons_self)

/-- Nothing can go on when something has been woken or taken as often as is due. -/
theorem isStill_drainWithin {bound : Nat} (hs : s.Modest) (hdue : s.due ≤ bound) :
    (s.drainWithin bound).IsStill ∧ (s.drainWithin bound).Modest := by
  induction bound generalizing s with
  | zero =>
    have hnone : ∀ n, ¬ n < s.due := by omega
    cases hkeys : s.asleep.keys with
    | cons pause pauses =>
      obtain ⟨t, ht⟩ := exists_sleeper hkeys
      exact absurd (due_wake hs ht) (hnone _)
    | nil =>
      cases hready : s.ready with
      | nil => exact ⟨⟨hready, hkeys⟩, hs⟩
      | cons r rest => exact absurd (due_takeReady hs hready) (hnone _)
  | succ bound ih =>
    rw [drainWithin]
    cases hkeys : s.asleep.keys with
    | cons pause pauses =>
      obtain ⟨t, ht⟩ := exists_sleeper hkeys
      have hless := due_wake hs ht
      exact ih (modest_wake hs ht) (by omega)
    | nil =>
      cases hready : s.ready with
      | nil => exact ⟨⟨hready, hkeys⟩, hs⟩
      | cons r rest =>
        have hless := due_takeReady hs hready
        exact ih (modest_takeReady hs hready) (by omega)

/-! ## How much is counted -/

theorem card_sum_map {α β : Type} (l : List α) (f : α → Multiset β) :
    ((l.map f).sum).card = (l.map fun a => (f a).card).sum := by
  induction l with
  | nil => rfl
  | cons a l ih => simp [ih]

/-- All chores are counted among what is in the queue and what waits for something or pauses. -/
theorem card_stock_le (s : Session Reply) : s.stock.card ≤ s.ready.length + s.waitingCount := by
  have hlocks : ((s.locks.values.map Lock.chores).sum).card =
      (s.locks.values.flatMap fun l => l.waiting).length := by
    rw [card_sum_map, List.length_flatMap]
    simp [Lock.chores]
  have hheld : ((s.held.values.map fun h => ({.child h.resume} : Multiset Chore)).sum).card =
      s.held.size := by
    rw [card_sum_map]
    simp [Assoc.values, Assoc.size, Function.comp_def]
  have hasleep : ((s.asleep.values.map fun t => ({.task t} : Multiset Chore)).sum).card =
      s.asleep.size := by
    rw [card_sum_map]
    simp [Assoc.values, Assoc.size, Function.comp_def]
  have hbatches : ((s.batches.map Batch.chores).sum).card ≤
      (s.batches.flatMap fun b => b.results.drop b.noted).length := by
    rw [card_sum_map, List.length_flatMap]
    refine List.sum_le_sum fun b _ => ?_
    rw [Batch.chores, List.length_drop]
    split
    · rw [Multiset.card_singleton]
      omega
    · exact Nat.zero_le _
  simp only [stock, waitingCount, Multiset.card_add, Multiset.coe_card, List.length_map, hlocks,
    hheld, hasleep]
  omega

theorem Modest.due_le (hs : s.Modest) : s.due ≤ 5 * s.stock.card := by
  have hsum : Chore.weigh s.stock ≤ (s.stock.map Chore.weight).card • 5 := by
    refine Multiset.sum_le_card_nsmul _ _ fun w hw => ?_
    obtain ⟨x, hx, rfl⟩ := Multiset.mem_map.1 hw
    exact (hs x hx).weight_le
  rw [Multiset.card_map, smul_eq_mul, mul_comm] at hsum
  exact hsum

/-- The scheduler goes on until nothing can go on. -/
theorem isStill_drain (hs : s.Modest) : s.drain.IsStill ∧ s.drain.Modest := by
  have hdue := hs.due_le
  have hcard := s.card_stock_le
  exact isStill_drainWithin hs (by omega)

/-! ## Operations on all workspaces -/

/-- When a task that fans out is taken, there is a job for each workspace. -/
theorem modest_run_of_fansOut (hs : s.Modest) (ht : t.FansOut) :
    (s.run t).Modest ∧ (s.run t).due ≤ 5 * (s.stock.card + s.state.registry.size + 1) := by
  obtain ⟨job, k, rfl, hk⟩ := ht
  rw [run, run]
  split
  · -- without workspaces the task goes on at once
    have hk₀ := hk s.state []
    have hmodest : (s.run (k s.state [])).Modest := by
      refine (less_run (k s.state []) s).modest fun x hx => ?_
      obtain hx | hx := Multiset.mem_add.1 hx
      · exact hs x hx
      · rw [Multiset.mem_singleton.1 hx]
        exact hk₀.mono (Nat.zero_le 3)
    have hrun := due_run hk₀ s
    have hdue := hs.due_le
    exact ⟨hmodest, by omega⟩
  · obtain ⟨u, hu, hcard, hstock⟩ := s.stock_startBatch (s.state.registered.map job) (k s.state)
    have hmodest : (s.startBatch (s.state.registered.map job) (k s.state)).Modest := by
      rw [Modest, hstock]
      intro x hx
      obtain hx | hx := Multiset.mem_add.1 hx
      · exact hs x hx
      · cases hu x hx with
        | passed _ _ rs => exact (hk s.state rs).mono (Nat.zero_le 3)
        | started _ _ batch index job => exact asks_jobTask batch index job
        | gathered => exact hk s.state
    refine ⟨hmodest, hmodest.due_le.trans (Nat.mul_le_mul_left 5 ?_)⟩
    rw [hstock, Multiset.card_add, Nat.add_assoc]
    refine Nat.add_le_add_left (hcard.trans (le_of_eq ?_)) _
    simp [State.registered, Assoc.values, Assoc.size]

/-- A task that comes when nothing can go on is taken up at once, and nothing can go on when the
scheduler stops. -/
theorem isStill_drain_enqueue (hs : s.Modest) (hstill : s.IsStill) (ht : t.Asks 3 ∨ t.FansOut) :
    (s.enqueue (.task t)).drain.IsStill ∧ (s.enqueue (.task t)).drain.Modest := by
  obtain ⟨hready, hasleep⟩ := hstill
  obtain ht | ht := ht
  · refine isStill_drain fun x hx => ?_
    rw [stock_enqueue, Multiset.mem_add, Multiset.mem_singleton] at hx
    obtain hx | rfl := hx
    · exact hs x hx
    · exact ht
  · obtain ⟨hmodest, hdue⟩ := modest_run_of_fansOut hs ht
    have hcard := s.card_stock_le
    obtain ⟨bound, hbound⟩ : ∃ bound, 8 * ((s.enqueue (.task t)).ready.length + s.waitingCount +
        s.state.registry.size + 1) = bound + 1 := ⟨_, rfl⟩
    have hdrain : (s.enqueue (.task t)).drain = (s.run t).drainWithin bound := by
      have hqueue : (s.enqueue (.task t)).ready = [.task t] := by rw [enqueue, hready]; rfl
      have htaken : { s.enqueue (.task t) with ready := [] } = s := by
        rw [← hready]
        rfl
      show drainWithin (8 * ((s.enqueue (.task t)).ready.length + s.waitingCount +
        s.state.registry.size + 1)) _ = _
      rw [hbound, drainWithin, show (s.enqueue (.task t)).asleep.keys = [] from hasleep, hqueue]
      exact congrArg (drainWithin bound) (congrArg (run t) htaken)
    rw [hready, List.length_nil] at hcard
    rw [enqueue, List.length_append, List.length_singleton] at hbound
    rw [hdrain]
    exact isStill_drainWithin hmodest (by omega)

end Session

/-! ## Sessions of a host -/

namespace Request

/-- A request asks for one lock and two pauses at most, or it is an operation on all workspaces. -/
theorem asks_operation (q : Request) : q.operation.Asks 3 ∨ q.operation.run.FansOut := by
  have hreply : ∀ {α : Type} {p : Op α} {m : Nat} (f : α → Reply), p.Asks m → m ≤ 3 →
      (p >>= fun a => pure (f a)).Asks 3 :=
    fun f hp hm => (hp.mono hm).add (m := 0) fun a => Op.asks_pure (f a)
  have hfan : ∀ {p : Op BatchReport}, p.run.FansOut →
      (p >>= fun b => pure (Reply.report b)).run.FansOut :=
    fun hp => hp.bind fun r => by cases r <;> exact trivial
  cases q with
  | start =>
    refine .inl (Op.Asks.bind ?_ fun _ => Op.asks_pure _)
    exact (Op.asks_modify _).bind fun _ => Op.asks_log _ _ _
  | shutdown =>
    refine .inr (hfan ((Supervisor.fansOut_fanOut .stop).bind fun r => ?_))
    cases r with
    | ok report =>
      exact Op.Asks.run ((Op.asks_modify _).bind fun _ => (Op.asks_log _ _ _).bind fun _ =>
        Op.asks_pure report)
    | error e => exact trivial
  | add root settings =>
    exact .inl (hreply .registration (Supervisor.asks_add root settings) (by decide))
  | remove root => exact .inl (hreply .flag (Supervisor.asks_remove root) (by decide))
  | update root settings =>
    exact .inl (hreply .registration (Supervisor.asks_update root settings) (by decide))
  | check root => exact .inl (hreply .checked (Supervisor.asks_check root) (by decide))
  | notebook root document cells language =>
    exact .inl (hreply .checked (Supervisor.asks_notebook root document cells language) (by decide))
  | signal root reason paths =>
    refine .inl ((Supervisor.asks_signal root reason paths).add (m := 0) fun r => ?_)
    cases r <;> exact Op.asks_pure _
  | recheckAll => exact .inr (hfan (Supervisor.fansOut_fanOut .check))
  | restartAll => exact .inr (hfan (Supervisor.fansOut_fanOut .restart))
  | stopAll => exact .inr (hfan (Supervisor.fansOut_fanOut .stop))
  | job j => exact .inl (hreply .checked j.asks_operation le_rfl)
  | fragments n document cells language =>
    exact .inl (hreply .checked (Check.asks_fragments n document cells language) (by decide))
  | kill n => exact .inl (hreply .checked (Check.asks_killDaemon n) (by decide))

theorem asks_task (q : Request) (step : Nat) :
    (q.task step).Asks 3 ∨ (q.task step).FansOut :=
  q.asks_operation.imp (fun h => h.run.bind (m := 0) fun _ => trivial)
    fun h => h.bind fun _ => trivial

end Request

namespace Session

/-- A session in which a host has asked for something so many times. In between, the host lets child
processes end or says how those to come behave, and others change the world. -/
inductive Hosted : Nat → Session Reply → Prop
  | start (setup : Setup) : Hosted 0 { state := setup.state }
  | submit {n : Nat} {s : Session Reply} (hs : Hosted n s) (q : Request)
    (hq : q.isKnown s.state = true) : Hosted (n + 1) (s.submit n q.operation)
  | release {n : Nat} {s : Session Reply} (hs : Hosted n s) (call : Nat) :
    Hosted n (s.release call)
  | respond {n : Nat} {s : Session Reply} (hs : Hosted n s) (bs : List Behaviour) :
    Hosted n { s with script := s.script ++ bs }
  | world {n : Nat} {s : Session Reply} (hs : Hosted n s) (w : World) :
    Hosted n { s with state := { s.state with world := w } }

variable {n : Nat} {s : Session Reply}

theorem Hosted.isStill_and_modest (hs : Hosted n s) : s.IsStill ∧ s.Modest := by
  induction hs with
  | start setup => exact ⟨⟨rfl, rfl⟩, fun x hx => absurd hx (Multiset.notMem_zero x)⟩
  | submit hs q hq ih => exact isStill_drain_enqueue ih.2 ih.1 (q.asks_task _)
  | @release n s hs call ih =>
    rw [Session.release]
    cases hcall : s.held.get? call with
    | none => exact ih
    | some x =>
      have hstock := stock_release hcall
        { s.state with world := x.behaviour.finish s.state.world }
      have hx : (Chore.child x.resume).Modest := ih.2 _ (by
        rw [hstock]
        exact Multiset.mem_add.2 (.inr (Multiset.mem_singleton_self _)))
      refine isStill_drain_enqueue (fun y hy => ih.2 y ?_) ⟨ih.1.ready, ih.1.asleep⟩ (.inl (hx _))
      rw [hstock]
      exact Multiset.mem_add.2 (.inl hy)
  | respond hs bs ih | world hs w ih => exact ⟨⟨ih.1.ready, ih.1.asleep⟩, ih.2⟩

/-- Whatever can go on has gone on when the host comes to ask for something else. -/
theorem Hosted.isStill (hs : Hosted n s) : s.IsStill := hs.isStill_and_modest.1

end Session

namespace Chronicle

/-- Whatever the host has asked for has begun. -/
def Begun (c : Chronicle) : Prop := ∀ k < c.asked, c.history.story (.host k) ≠ []

theorem Begun.step {c : Chronicle} (hc : c.Begun) (m : Move) : (c.step m).Begun := by
  intro k hk
  by_cases hkc : k < c.asked
  · exact History.story_ne_nil_of_suffix (suffix_step c m) (hc k hkc)
  · -- it has been asked for just now
    cases m with
    | request q =>
      rw [Chronicle.step] at hk ⊢
      split at hk
      · next hknown =>
        have hk' : k < c.asked + 1 := hk
        obtain rfl : k = c.asked := by omega
        rw [if_pos hknown]
        simp [begin, note, onSession, History.story]
      · exact absurd hk hkc
    | _ => exact absurd (hk.trans_eq (continues_step c (by simp)).asked) hkc

theorem Begun.steps {c : Chronicle} (hc : c.Begun) (moves : List Move) :
    (moves.foldl Chronicle.step c).Begun := by
  induction moves generalizing c with
  | nil => exact hc
  | cons m moves ih => exact ih (hc.step m)

theorem begun_after (setup : Setup) (moves : List Move) : (after setup moves).Begun :=
  Begun.steps (fun k hk => absurd hk (Nat.not_lt_zero k)) moves

end Chronicle

namespace Session.Hosted

variable {n : Nat} {s : Session Reply}

/-- Every session of a host is the session of a chronicle, so what is known of all chronicles is
known of it. -/
theorem exists_after (hs : Hosted n s) :
    ∃ setup moves, (after setup moves).session = s ∧ (after setup moves).asked = n := by
  induction hs with
  | start setup => exact ⟨setup, [], rfl, rfl⟩
  | submit hs q hq ih =>
    obtain ⟨setup, moves, rfl, rfl⟩ := ih
    obtain ⟨own, hown, hsession⟩ := session_submit (after setup moves) q hq
    refine ⟨setup, moves ++ .request q :: own, ?_, ?_⟩
    · rw [after_append, hsession]
    · rw [after_append, List.foldl_cons, (continues_schedule _ hown).asked, step, if_pos hq]
  | release hs call ih =>
    obtain ⟨setup, moves, rfl, rfl⟩ := ih
    obtain ⟨own, hown, hsession⟩ := session_release (after setup moves) call
    refine ⟨setup, moves ++ .release call :: own, ?_, ?_⟩
    · rw [after_append, hsession]
    · rw [after_append, List.foldl_cons, (continues_schedule _ hown).asked]
      exact (continues_step _ (by simp)).asked
  | respond hs bs ih =>
    obtain ⟨setup, moves, rfl, rfl⟩ := ih
    exact ⟨setup, moves ++ [.respond bs], by rw [after_append]; rfl, by rw [after_append]; rfl⟩
  | world hs w ih =>
    obtain ⟨setup, moves, rfl, rfl⟩ := ih
    exact ⟨setup, moves ++ [.world w], by rw [after_append]; rfl, by rw [after_append]; rfl⟩

/-- Unless some child process is still underway, whatever the host has asked for has been
answered. -/
theorem exists_result (hs : Hosted n s) (hheld : s.held.keys = []) {k : Nat} (hk : k < n) :
    ∃ r, s.result? k = some r := by
  obtain ⟨hready, hasleep⟩ := hs.isStill
  obtain ⟨setup, moves, rfl, rfl⟩ := hs.exists_after
  have hidle : (after setup moves).session.isIdle = true := by
    simp [Session.isIdle, hready, hheld, hasleep]
  obtain ⟨r, hr, -⟩ := (census_after setup moves).exists_result_of_idle
    (resting_after setup moves) hidle (begun_after setup moves k hk)
  exact ⟨r, hr⟩

end Session.Hosted

end Overseer
