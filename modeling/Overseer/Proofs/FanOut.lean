import Overseer.Proofs.Alone
import Overseer.Proofs.Census
import Overseer.Proofs.Exhaustion
import Overseer.Proofs.Heedful

set_option autoImplicit false

/-! # Operations on all workspaces

The operations on all workspaces start a job on each of them, wait for all jobs, and report on them
(`Request.task_of_fanOut`). In a run nothing else is underway (`Outset.Run`), and workspaces keep
apart. Then every job comes to what it would come to if it were alone (`Outset.Run.as_if_alone`),
whatever the child processes of the other workspaces do and in whatever order all of them end. What
has begun can always be brought to an end (`Outset.Course.exists_run`). -/

namespace Overseer

open History Chronicle

/-! ## What is on file -/

namespace State

/-- The collection of a workspace. -/
def collection? (s : State) (k : String) : Option Collection :=
  (s.store.current.get? k).bind s.store.at?

/-- The handle of a workspace. -/
def handle? (s : State) (k : String) : Option Handle := (s.handleOf.get? k).map s.handle

end State

/-! ## The operations -/

/-- The job that an operation does on all workspaces. -/
def Request.fanOut? : Request → Option (Nat → Job)
  | recheckAll => some .check
  | restartAll => some .restart
  | stopAll => some .stop
  | _ => none

namespace Supervisor

/-- The rest of the task, when all jobs have ended. -/
def rest (step : Nat) (numbers : List Nat) (results : List (Except Fault CheckResult)) :
    Task Reply :=
  (concluding numbers results).run.bind fun r => .done (.host step (r.map Reply.report))

end Supervisor

namespace Request

variable {q : Request} {job : Nat → Job}

theorem task_of_fanOut (hq : q.fanOut? = some job) (step : Nat) :
    q.task step = .read fun s =>
      .gather (s.registered.map job) (Supervisor.rest step s.registered) := by
  have hfanOut : ∀ job : Nat → Job,
      (do return .report (← Supervisor.fanOut job) : Op Reply).run.bind
        (fun r => .done (Finished.host step r)) =
      .read fun s => .gather (s.registered.map job) (Supervisor.rest step s.registered) := by
    intro job
    refine congrArg Prog.read (funext fun s => congrArg (Prog.gather _) (funext fun rs => ?_))
    refine (Prog.bind_assoc (Supervisor.concluding s.registered rs).run _ _).trans ?_
    refine congrArg (Prog.bind _) (funext fun r => ?_)
    cases r <;> rfl
  cases q <;> cases hq
  · exact hfanOut .check
  · exact hfanOut .restart
  · exact hfanOut .stop

theorem isKnown_of_fanOut (hq : q.fanOut? = some job) (s : State) : q.isKnown s = true := by
  cases q <;> first | rfl | cases hq

theorem number_of_fanOut (hq : q.fanOut? = some job) (n : Nat) : (job n).number = n := by
  cases q <;> cases hq <;> rfl

end Request

/-! ## The report -/

namespace Outset

open Supervisor

variable {O : Outset}

section Mild

variable (hO : O.Apart) {s : State} (hs : O.Amid s)
include hO hs

theorem mild_jobResult (n : Nat) (r : Except Fault CheckResult) :
    (jobResult n r).run.Mild O (fun x s' => x = .ok (O.noted n r) ∧ O.Amid s') s := by
  cases r with
  | ok r => exact ⟨rfl, hs⟩
  | error e =>
    have hleaves : O.Leaves none s (s.record _) := leaves_record hO
      ⟨.error, .supervisor, s!"Operation failed for {(s.workspace n).root.text}: {e.literal}"⟩
    refine ⟨hleaves, ?_, (hleaves hs).1⟩
    rw [noted, ← hs.key]
    rfl

theorem mild_mapM_jobResult (xs : List (Nat × Except Fault CheckResult)) :
    (xs.mapM fun x => jobResult x.1 x.2 : Op (List CheckResult)).run.Mild O
      (fun x s' => x = .ok (xs.map fun x => O.noted x.1 x.2) ∧ O.Amid s') s := by
  induction xs generalizing s with
  | nil =>
    rw [List.mapM_nil]
    exact ⟨rfl, hs⟩
  | cons x xs ih =>
    rw [List.mapM_cons]
    refine Prog.Mild.bind ((mild_jobResult hO hs x.1 x.2).mono ?_)
    rintro _ s' ⟨rfl, hs'⟩
    refine Prog.Mild.bind ((ih hs').mono ?_)
    rintro _ s' ⟨rfl, hs'⟩
    exact ⟨rfl, hs'⟩

theorem mild_concluding (rs : List (Except Fault CheckResult)) :
    (concluding O.state.registered rs).run.Mild O (fun x _ => x = .ok (O.report rs)) s := by
  rw [concluding]
  refine Prog.Mild.bind ((mild_mapM_jobResult hO hs _).mono ?_)
  rintro _ s' ⟨rfl, hs'⟩
  show ((if (!(O.report rs).failures.isEmpty) = true then
    (Op.log .warning .supervisor _ >>= fun _ => pure (O.report rs)) else pure (O.report rs) :
      Op BatchReport)).run.Mild O _ s'
  split
  · exact ⟨leaves_record hO _, rfl⟩
  · exact rfl

theorem mild_rest (step : Nat) (rs : List (Except Fault CheckResult)) :
    (rest step O.state.registered rs).Mild O
      (fun f _ => f = .host step (.ok (.report (O.report rs)))) s := by
  refine Prog.Mild.bind ((mild_concluding hO hs rs).mono ?_)
  rintro _ _ rfl
  exact rfl

end Mild

/-! ## From the start on -/

theorem amid_start (hO : O.Apart) (hs : O.state.Coherent) (hsound : O.state.HandlesSound) :
    O.Amid O.state where
  registrations := rfl
  registry := rfl
  daemons := rfl
  takesNotices := rfl
  listeners := rfl
  environment := rfl
  world := hO.start
  sound := hsound
  uses n _ id hid := .onFile hid _
  current n hn := by
    obtain ⟨e, he, rfl⟩ := List.mem_map.1 hn
    have hget := (Assoc.get?_eq_some_iff O.state.registry e.1 e.2).2 he
    obtain ⟨id, hid⟩ := hs.listed _ _ hget
    obtain ⟨c, hc, hworkspace, -⟩ := hs.current _ _ hid
    rw [(hs.registered _ _ hget).2.1]
    exact ⟨id, c, hid, hid, hc, hworkspace⟩

theorem Amid.twin {s : State} (hs : O.Amid s) {n : Nat} : O.Twin n none s s where
  left := hs
  right := hs
  handle := rfl
  lock := rfl
  collection _ _ := rfl
  world := .refl _
  onFile _ hp := absurd hp (by simp)

/-- In twin states a workspace has the same collection. -/
theorem Twin.collection?_eq {n : Nat} {ids : Option (Nat × Nat)} {s σ : State}
    (h : O.Twin n ids s σ) (hn : n ∈ O.state.registered) :
    s.collection? (O.state.key n) = σ.collection? (O.state.key n) := by
  obtain ⟨id, c, hid, hcurrent, -⟩ := h.left.current n hn
  obtain ⟨id', c', hid', hcurrent', -⟩ := h.right.current n hn
  obtain rfl := Option.some.inj (hid.symm.trans hid')
  rw [State.collection?, State.collection?, hcurrent, hcurrent']
  exact h.collection id hid

theorem getElem?_report {rs : List (Except Fault CheckResult)} {index n : Nat}
    {x : Except Fault CheckResult} (hindex : O.state.registered[index]? = some n)
    (hx : rs[index]? = some x) : (O.report rs).results[index]? = some (O.noted n x) := by
  have hzip : (O.state.registered.zip rs)[index]? = some (n, x) :=
    List.getElem?_zip_eq_some.2 ⟨hindex, hx⟩
  rw [report, List.getElem?_map, hzip, Option.map_some]

/-- There is one entry in the report for every registered workspace, under its key. -/
theorem map_workspace_report {rs : List (Except Fault CheckResult)}
    (hrs : ∀ (index n : Nat), O.state.registered[index]? = some n →
      ∃ x, rs[index]? = some x ∧ ∀ a, x = .ok a → O.Names n a) :
    (O.report rs).results.map CheckResult.workspace = O.state.registered.map O.state.key := by
  refine List.ext_getElem? fun index => ?_
  rw [List.getElem?_map, List.getElem?_map]
  cases hindex : O.state.registered[index]? with
  | none =>
    have hnone : (O.report rs).results[index]? = none := by
      rw [List.getElem?_eq_none_iff] at hindex ⊢
      rw [report, List.length_map, List.length_zip]
      omega
    rw [hnone, Option.map_none, Option.map_none]
  | some n =>
    obtain ⟨x, hx, hnames⟩ := hrs index n hindex
    rw [getElem?_report hindex hx]
    cases x with
    | ok a => exact congrArg some (hnames a rfl)
    | error e => rfl

/-- The results are the replies of the jobs of a batch. -/
def Replied (O : Outset) (batch : Nat) (last : Chronicle) (rs : List (Except Fault CheckResult)) :
    Prop :=
  ∀ index n, O.state.registered[index]? = some n →
    ∃ r, rs[index]? = some r ∧ last.history.reply? (.job batch index) = some (r.map .checked)

end Outset

theorem History.exists_ended_of_reply? {h : History} {i : TaskId} {r : Except Fault Reply}
    (hr : h.reply? i = some r) : ∃ s h', h.story i = ⟨i, .ended r, s⟩ :: h' := by
  obtain ⟨m, hm, hwhat⟩ := Option.bind_eq_some_iff.1 hr
  obtain ⟨h', hh'⟩ := List.head?_eq_some_iff.1 hm
  have hwho := of_decide_eq_true (List.mem_filter.1 (hh' ▸ List.mem_cons_self : m ∈ h.story i)).2
  obtain ⟨who, what, s⟩ := m
  cases what with
  | ended r' =>
    cases hwhat
    cases hwho
    exact ⟨s, h', hh'⟩
  | _ => exact absurd hwhat (by simp [Happening.reply?])

theorem Reply.eq_of_map_checked {x x' : Except Fault CheckResult}
    (h : x.map checked = x'.map checked) : x = x' := by
  cases x <;> cases x' <;> cases h <;> rfl

/-- How the child processes behave that a task starts in the course of some moves. -/
def Chronicle.dealtAll : List Move → Chronicle → TaskId → List Behaviour
  | [], _, _ => []
  | m :: ms, c, i => c.dealt m i ++ dealtAll ms (c.step m) i

theorem Chronicle.dealtAll_append (ms ms' : List Move) (c : Chronicle) (i : TaskId) :
    dealtAll (ms ++ ms') c i = dealtAll ms c i ++ dealtAll ms' (ms.foldl step c) i := by
  induction ms generalizing c with
  | nil => rfl
  | cons m ms ih =>
    rw [List.cons_append, dealtAll, dealtAll, ih, List.append_assoc, List.foldl_cons]

/-- Whether a move is no interference from outside. -/
def Chronicle.Move.isOwn : Move → Bool
  | respond _ | release _ | wake _ | take => true
  | request _ | world _ => false

/-- Who leaves all workspaces as they are starts no child processes. -/
theorem Prog.Mild.dealt_eq_nil {O : Outset} {t : Task Reply} {Q : Finished Reply → State → Prop}
    {s : Session Reply} (ht : t.Mild O Q s.state) : s.dealt t = [] := by
  induction t generalizing s with
  | done f => rfl
  | read k ih => exact ih s.state ht
  | write s' k ih => exact ih (s := { s with state := s' }) ht.2
  | _ => exact absurd ht id

/-- Who leaves all workspaces as they are goes on to the end. -/
theorem Prog.Mild.result?_run {O : Outset} {t : Task Reply} {step : Nat} {r : Except Fault Reply}
    {i : TaskId} {c : Chronicle} (ht : t.Mild O (fun f _ => f = .host step r) c.session.state)
    (hnew : c.session.result? step = none) : (c.run i t).session.result? step = some r := by
  induction t generalizing c with
  | done f =>
    obtain rfl : f = .host step r := ht
    exact (Session.result?_finish hnew r step).trans (if_pos rfl)
  | read k ih => exact ih c.session.state ht hnew
  | write s k ih => exact ih (c := c.onSession fun session => { session with state := s }) ht.2 hnew
  | _ => exact absurd ht id

namespace Outset

variable {O : Outset}

section Underway

variable (hO : O.Apart) (hs : O.state.Coherent) (job : Nat → Job) (batch : Nat) (last : Chronicle)

/-- Jobs on all workspaces are underway, and everybody holds to the accord. -/
structure Underway (sᵢ s₀ : State) (h₀ : History) (d : TaskId → List Behaviour)
    (c : Chronicle) : Prop where
  resting : c.Resting sᵢ
  census : Census [] none c
  holds : (O.accord hO hs job batch (O.Replied batch last)).Holds s₀ h₀ c.session.state d none c
  begun : ∀ index n, O.state.registered[index]? = some n →
    c.history.story (.job batch index) ≠ []

namespace Underway

variable {hO : O.Apart} {hs : O.state.Coherent} {job : Nat → Job} {batch : Nat} {last : Chronicle}
  {sᵢ s₀ : State} {h₀ : History} {d : TaskId → List Behaviour} {c : Chronicle}

/-- Only the rests of jobs start child processes. -/
theorem deals_of_rest {i : TaskId} {t : Task Reply} {ds : List Behaviour} {s : Session Reply}
    (hrest : O.Rest job batch (O.Replied batch last) i t ds s.state) {b : Behaviour}
    (hacts : ∀ index n, i = .job batch index → O.state.registered[index]? = some n → O.acts n b)
    (hb : b ∈ s.dealt t) : (O.accord hO hs job batch (O.Replied batch last)).deals i b := by
  cases hrest with
  | job hindex ht hp => exact ⟨_, number?_eq_some_iff.2 ⟨_, rfl, hindex⟩, hacts _ _ rfl hindex⟩
  | host ht =>
    rw [Prog.Mild.dealt_eq_nil ht] at hb
    exact absurd hb (by simp)

/-- Child processes are those of jobs. -/
theorem deals (hc : Underway hO hs job batch last sᵢ s₀ h₀ d c) (hᵢ : sᵢ.Coherent) {m : Move}
    (hacts : ∀ index n, O.state.registered[index]? = some n →
      ∀ b ∈ c.dealt m (.job batch index), O.acts n b) (i : TaskId) :
    ∀ b ∈ c.dealt m i, (O.accord hO hs job batch (O.Replied batch last)).deals i b := by
  intro b hb
  obtain ⟨place, hsound, -⟩ := hc.resting
  -- whoever goes on, goes on as it may
  have hstation : ∀ x t, c.session.Stands i x → (x = .queue t ∨ ∃ n, x = .asleep n t) →
      ∃ ds, O.Rest job batch (O.Replied batch last) i t ds c.session.state := by
    intro x t hx ht
    have hwaits := hc.holds.waits i x hx
    obtain rfl | ⟨n, rfl⟩ := ht
    all_goals exact ⟨_, (hwaits _ (.refl (hsound.lawful.coherent hᵢ)) (Accord.rely_refl _ i _)).2.2⟩
  have hown : ∀ index n, i = .job batch index → O.state.registered[index]? = some n →
      O.acts n b := by
    rintro index n rfl hindex
    exact hacts index n hindex b hb
  cases m with
  | take =>
    rw [Chronicle.dealt] at hb
    split at hb
    · next t rest hready =>
      split at hb
      · next howner =>
        obtain ⟨ds, hrest⟩ := hstation (.queue t) t
          ⟨by simp [Session.tasks, hready, Ready.task?], howner⟩ (.inl rfl)
        exact deals_of_rest (s := { c.session with ready := rest }) hrest hown hb
      · exact absurd hb (by simp)
    · exact absurd hb (by simp)
  | wake pause =>
    rw [Chronicle.dealt] at hb
    split at hb
    · next t ht =>
      split at hb
      · next howner =>
        obtain ⟨ds, hrest⟩ := hstation (.asleep pause t) t ⟨ht, howner⟩ (.inr ⟨pause, rfl⟩)
        exact deals_of_rest (s := { c.session with asleep := c.session.asleep.erase pause }) hrest
          hown hb
      · exact absurd hb (by simp)
    · exact absurd hb (by simp)
  | _ => exact absurd hb (by simp [Chronicle.dealt])

/-- Every move keeps jobs underway. -/
theorem step (hc : Underway hO hs job batch last sᵢ s₀ h₀ d c) (hᵢ : sᵢ.Coherent) {m : Move}
    {moves : List Move} (hown : m.isOwn = true) (hlast : (m :: moves).foldl Chronicle.step c = last)
    (hacts : ∀ index n, O.state.registered[index]? = some n →
      ∀ b ∈ c.dealt m (.job batch index), O.acts n b) :
    Underway hO hs job batch last sᵢ s₀ h₀ (fun i => d i ++ c.dealt m i) (c.step m) where
  resting := hc.resting.step hᵢ m
  census := hc.census.step hc.resting hᵢ m
  holds := by
    refine hc.holds.step hc.resting hᵢ m (fun q hm => ?_) (fun w hm => ?_) (hc.deals hᵢ hacts)
      fun n x hready hx hnoted => ?_
    · exact absurd hown (by simp [hm, Move.isOwn])
    · exact absurd hown (by simp [hm, Move.isOwn])
    · rintro rfl index m' hindex
      obtain ⟨r, hr, hreply⟩ := hc.census.gathered hready hx hnoted (hc.begun index m' hindex)
      -- what is on record now is still on record at the end
      have hkept := (hc.census.renew.steps hc.resting hᵢ (m :: moves)).kept _ _ hreply
      rw [hlast] at hkept
      exact ⟨r, hr, hkept⟩
  begun index n hindex := story_ne_nil_of_suffix (suffix_step c m) (hc.begun index n hindex)

theorem steps (hc : Underway hO hs job batch last sᵢ s₀ h₀ d c) (hᵢ : sᵢ.Coherent)
    {moves : List Move} (hown : ∀ m ∈ moves, m.isOwn = true)
    (hlast : moves.foldl Chronicle.step c = last)
    (hacts : ∀ index n, O.state.registered[index]? = some n →
      ∀ b ∈ dealtAll moves c (.job batch index), O.acts n b) :
    Underway hO hs job batch last sᵢ s₀ h₀ (fun i => d i ++ dealtAll moves c i) last := by
  induction moves generalizing c d with
  | nil =>
    obtain rfl : c = last := hlast
    simpa [dealtAll] using hc
  | cons m moves ih =>
    have hstep := hc.step hᵢ (hown m List.mem_cons_self) hlast fun index n hindex b hb =>
      hacts index n hindex b (List.mem_append_left _ hb)
    have hrest := ih hstep (fun m hm => hown m (List.mem_cons_of_mem _ hm)) hlast
      fun index n hindex b hb => hacts index n hindex b (List.mem_append_right _ hb)
    simpa only [dealtAll, List.append_assoc] using hrest

/-- Where nobody else stands anywhere, jobs on all workspaces may begin. -/
theorem start (hamid : O.Amid O.state) (hjob : ∀ n, (job n).number = n) {s : Session Reply}
    {step : Nat} (hsession : c.session =
      s.startBatch (O.state.registered.map job) (Supervisor.rest step O.state.registered))
    (hnobody : ∀ i x, ¬ s.Stands i x) (hstate : s.state = O.state) (hcensus : Census [] none c)
    (hresting : c.Resting sᵢ) :
    Underway hO hs job s.batches.length last sᵢ O.state c.history (fun _ => []) c := by
  have hbegun : ∀ index n, O.state.registered[index]? = some n →
      c.history.story (.job s.batches.length index) ≠ [] := by
    intro index n hindex
    rw [hcensus.jobs, hsession, Session.slot?_startBatch, if_pos rfl, List.getElem?_map, hindex]
    rfl
  have hby : ∀ rs, (Supervisor.rest step O.state.registered rs).By (.host step) := fun rs =>
    Prog.by_bind _ fun _ => rfl
  have hb : c.session.state = O.state := by
    rw [hsession, Session.state_startBatch, hstate]
  refine ⟨hresting, hcensus, ?_, hbegun⟩
  rw [hb]
  refine ⟨.nil, fun i x hx => ?_, fun i _ hi r s' h hh => ?_, fun _ _ => rfl⟩
  · rw [hsession] at hx
    rcases Session.stands_startBatch hby hx with hx | ⟨rfl, rfl⟩ | ⟨index, j, hj, rfl, rfl⟩
    · exact absurd hx (hnobody i x)
    · intro rs hrs s' _ hrely
      obtain ⟨hs', -⟩ := hrely hamid
      exact ⟨hs', .refl s', .host ((mild_rest hO hs' step rs).mono fun f _ hf =>
        ⟨rs, hrs rfl, hf⟩)⟩
    · rw [List.getElem?_map] at hj
      obtain ⟨n, hindex, rfl⟩ := Option.map_eq_some_iff.1 hj
      intro s' _ hrely
      obtain ⟨hs', hstays⟩ := hrely hamid
      have hn : O.TakesPart (job n).number := by
        rw [hjob]
        exact ⟨hO, hs, List.mem_of_getElem? hindex⟩
      have htwin : O.Twin n none s' O.state := hamid.twin.stays hs'
        (hstays n (number?_eq_some_iff.2 ⟨index, rfl, hindex⟩)) (List.mem_of_getElem? hindex)
      refine ⟨hs', .refl s', .job hindex rfl ⟨_, O.state, ?_, fun _ => rfl⟩⟩
      have hpaired : Op.Paired O _ none _ _ _ := Job.paired_operation (job n) hn
      rw [hjob] at hpaired
      exact Op.paired_iff_run.1 hpaired s' O.state htwin
  · rw [reply?, hh] at hi
    exact absurd hi (by simp [Happening.reply?])

variable (hc : Underway hO hs job batch last sᵢ s₀ h₀ d last) (hidle : last.session.isIdle = true)
include hc hidle

/-- When nothing can go on, whoever was underway has ended as it may. -/
theorem ended {i : TaskId} (hopen : h₀.reply? i = none) (hbegun : last.history.story i ≠ []) :
    ∃ f s, last.history.reply? i = some f.reply ∧ O.Rest job batch (O.Replied batch last) i
      (.done f) (d i) s ∧ O.Amid s ∧ O.Amid last.session.state ∧
        ∀ n, O.number? batch i = some n → O.Stays n s last.session.state := by
  cases hreply : last.history.reply? i with
  | none => exact absurd ⟨hbegun, hreply⟩ (hc.census.ended_of_idle hc.resting hidle i)
  | some r =>
    obtain ⟨s, h, hh⟩ := exists_ended_of_reply? hreply
    obtain ⟨⟨f, rfl, hamid, -, hrest⟩, hrely⟩ := hc.holds.ended i (by simp) hopen r s h hh
    exact ⟨f, s, rfl, hrest, hamid, hrely hamid⟩

/-- When nothing can go on, every job has come to what it comes to on its own. -/
theorem alone {index n : Nat} (hindex : O.state.registered[index]? = some n)
    (hopen : h₀.reply? (.job batch index) = none) :
    ∃ r σ, last.history.reply? (.job batch index) = some (r.map .checked) ∧
      (job n).operation.run.alone (d (.job batch index)) O.state = some (r, σ) ∧
      (∀ a, r = .ok a → O.Names n a) ∧ O.Twin n none last.session.state σ := by
  obtain ⟨f, s, hreply, hrest, -, hlast, hstays⟩ := hc.ended hidle hopen (hc.begun index n hindex)
  obtain ⟨r, σ, rfl, halone, hnames, htwin⟩ := hrest.done hindex
  exact ⟨r, σ, hreply, halone, hnames, htwin.stays hlast
    (hstays n (number?_eq_some_iff.2 ⟨index, rfl, hindex⟩)) (List.mem_of_getElem? hindex)⟩

/-- When nothing can go on, there is a report on the replies of the jobs. -/
theorem exists_report {step : Nat} (hopen : h₀.reply? (.host step) = none)
    (hbegun : last.history.story (.host step) ≠ []) :
    ∃ rs, O.Replied batch last rs ∧
      last.session.result? step = some (.ok (.report (O.report rs))) := by
  obtain ⟨f, s, hreply, hrest, -⟩ := hc.ended hidle hopen hbegun
  obtain ⟨rs, hrs, rfl⟩ := hrest.reports
  exact ⟨rs, hrs, (hc.census.hosts step).trans hreply⟩

end Underway

end Underway

/-! ## Runs -/

/-- A request that is made when nothing is underway. From then on the scheduler takes, child
processes end and pauses are over. -/
structure Course (O : Outset) (q : Request) where
  setup : Setup
  before : List Move
  moves : List Move
  quiet : (after setup before).session.isIdle = true
  start : (after setup before).session.state = O.state
  own : ∀ m ∈ moves, m.isOwn = true

/-- A run of a request goes on until nothing can go on. -/
structure Run (O : Outset) (q : Request) extends Course O q where
  idle : (moves.foldl Chronicle.step ((after setup before).step (.request q))).session.isIdle = true

/-- A run goes on with what has begun. -/
def Run.Completes {q : Request} (r : O.Run q) (p : O.Course q) : Prop :=
  r.setup = p.setup ∧ r.before = p.before ∧ p.moves <+: r.moves

/-- What has begun can be brought to an end. -/
theorem Course.exists_run {q : Request} (p : O.Course q) : ∃ r : O.Run q, r.Completes p := by
  obtain ⟨moves, hmoves, hidle⟩ := exists_isIdle
    (p.moves.foldl Chronicle.step ((after p.setup p.before).step (.request q)))
  refine ⟨⟨{ p with moves := p.moves ++ moves, own := fun m hm => ?_ }, ?_⟩, rfl, rfl,
    List.prefix_append _ _⟩
  · obtain hm | hm := List.mem_append.1 hm
    · exact p.own m hm
    · obtain rfl | ⟨n, rfl | rfl⟩ := hmoves m hm <;> rfl
  · rw [List.foldl_append]
    exact hidle

namespace Run

variable {q : Request} (r : O.Run q)

/-- What has happened when the request is made. -/
def first : Chronicle := after r.setup r.before

/-- What has happened in the end. -/
def last : Chronicle := r.moves.foldl Chronicle.step (r.first.step (.request q))

/-- The reply to the request. -/
def reply? : Option (Except Fault Reply) := r.last.session.result? r.first.asked

/-- How the child processes of a registered workspace behave, one after the other. -/
def dealt (index : Nat) : List Behaviour :=
  dealtAll r.moves (r.first.step (.request q)) (.job r.first.session.batches.length index)

/-- All child processes behave as they may. -/
def Acts : Prop :=
  ∀ index n, O.state.registered[index]? = some n → ∀ b ∈ r.dealt index, O.acts n b

/-- Nothing but new answers comes before the first task is taken. -/
theorem exists_first_take {c : Chronicle} {moves : List Move} (hready : c.session.ready ≠ [])
    (hheld : ∀ n, c.session.held.get? n = none) (hasleep : ∀ n, c.session.asleep.get? n = none)
    (hown : ∀ m ∈ moves, m.isOwn = true)
    (hidle : (moves.foldl Chronicle.step c).session.isIdle = true) :
    ∃ script pre post, moves = pre ++ .take :: post ∧
      pre.foldl Chronicle.step c = c.onSession (fun s => { s with script }) ∧
      ∀ i, dealtAll pre c i = [] := by
  induction moves generalizing c with
  | nil => exact absurd (Session.ready_of_isIdle hidle).1 hready
  | cons m moves ih =>
    have hown' := fun m hm => hown m (List.mem_cons_of_mem _ hm)
    cases m with
    | take => exact ⟨c.session.script, [], moves, rfl, rfl, fun _ => rfl⟩
    | respond bs =>
      obtain ⟨script, pre, post, rfl, hpre, hdealt⟩ := ih (c := c.step (.respond bs)) hready hheld
        hasleep hown' hidle
      exact ⟨script, .respond bs :: pre, post, rfl, hpre, hdealt⟩
    | release n =>
      have hsame : c.step (.release n) = c := by rw [Chronicle.step, hheld]
      rw [List.foldl_cons, hsame] at hidle
      obtain ⟨script, pre, post, rfl, hpre, hdealt⟩ := ih hready hheld hasleep hown' hidle
      refine ⟨script, .release n :: pre, post, rfl, ?_, fun i => ?_⟩
      · rw [List.foldl_cons, hsame, hpre]
      · rw [dealtAll, hsame, hdealt]
        rfl
    | wake n =>
      have hsame : c.step (.wake n) = c := by rw [Chronicle.step, Chronicle.wake, hasleep]
      rw [List.foldl_cons, hsame] at hidle
      obtain ⟨script, pre, post, rfl, hpre, hdealt⟩ := ih hready hheld hasleep hown' hidle
      refine ⟨script, .wake n :: pre, post, rfl, ?_, fun i => ?_⟩
      · rw [List.foldl_cons, hsame, hpre]
      · rw [dealtAll, hsame, hdealt, Chronicle.dealt, hasleep]
        rfl
    | request q | world w =>
      exact absurd (hown _ List.mem_cons_self) (by simp [Move.isOwn])

include r in
theorem coherent : O.state.Coherent := by
  rw [← r.start]
  exact (lawful_after r.setup r.before).coherent (coherent_setup r.setup)

include r in
theorem amid (hO : O.Apart) : O.Amid O.state := by
  refine amid_start hO r.coherent ?_
  rw [← r.start]
  exact (dutiful_after r.setup r.before).handlesLater.sound (handlesSound_setup r.setup)

/-- When the request is made, nobody stands anywhere. -/
theorem not_stands (i : TaskId) (x : Station) : ¬ r.first.session.Stands i x := by
  intro hx
  have hcensus := census_after r.setup r.before
  exact hcensus.ended_of_idle (resting_after r.setup r.before) r.quiet i
    ((hcensus.whereabouts i).2 (.inl hx.standing))

theorem result?_first : r.first.session.result? r.first.asked = none := by
  obtain ⟨place, hsound, -⟩ := resting_after r.setup r.before
  rw [first, (census_after r.setup r.before).hosts, History.reply?,
    hsound.fresh (.host _) (Nat.le_refl _)]
  rfl

/-- When the first task is taken, the jobs are started, if there are any. -/
theorem exists_started {job : Nat → Job} (hq : q.fanOut? = some job) :
    ∃ (pre post : List Move) (script : List Behaviour) (c : Chronicle), r.moves = pre ++ post ∧
      pre.foldl Chronicle.step (r.first.step (.request q)) = c.run (.host r.first.asked)
        (.gather (O.state.registered.map job)
          (Supervisor.rest r.first.asked O.state.registered)) ∧
      c.session = { r.first.session with script } ∧
      ∀ batch index, dealtAll pre (r.first.step (.request q)) (.job batch index) = [] := by
  obtain ⟨hready, hheld, hasleep⟩ := Session.ready_of_isIdle r.quiet
  have hstep : r.first.step (.request q) = { r.first.begin (.host r.first.asked) q
      (q.task r.first.asked) with asked := r.first.asked + 1 } := by
    rw [Chronicle.step, if_pos (Request.isKnown_of_fanOut hq _)]
  have hasked : (r.first.step (.request q)).session =
      { r.first.session with ready := [.task (q.task r.first.asked)] } := by
    rw [hstep]
    show r.first.session.enqueue (.task (q.task r.first.asked)) = _
    rw [Session.enqueue, first, hready, List.nil_append]
  have howner : (q.task r.first.asked).owner = .host r.first.asked :=
    (by_task q r.first.asked).owner
  obtain ⟨script, pre, post, hmoves, hpre, hdealt⟩ := exists_first_take
    (c := r.first.step (.request q)) (by rw [hasked]; simp) (by rw [hasked]; exact hheld)
    (by rw [hasked]; exact hasleep) r.own r.idle
  obtain ⟨c, hc⟩ : ∃ c, c = (r.first.step (.request q)).onSession fun s => { s with script } :=
    ⟨_, rfl⟩
  have hqueue : c.session.ready = [.task (q.task r.first.asked)] := by
    rw [hc]
    exact congrArg Session.ready hasked
  have hsession : (c.onSession fun s => { s with ready := [] }).session =
      { r.first.session with script } := by
    rw [hc]
    show { (r.first.step (.request q)).session with script, ready := [] } = _
    rw [hasked, ← hready]
    rfl
  refine ⟨pre ++ [.take], post, script, (c.onSession fun s => { s with ready := [] }).note
    (.host r.first.asked) .resumed, by simp [hmoves], ?_, hsession, fun batch index => ?_⟩
  · rw [List.foldl_append, hpre, ← hc]
    show c.step .take = _
    rw [Chronicle.step, hqueue]
    show ((c.onSession fun s => { s with ready := [] }).note _ .resumed).run _ _ = _
    rw [howner, Request.task_of_fanOut hq, Chronicle.run]
    simp only [session_note, hsession]
    rw [← r.start]
    rfl
  · rw [dealtAll_append, hdealt, hpre, ← hc, dealtAll, dealtAll, Chronicle.dealt, hqueue]
    simp [howner]

theorem after_first (moves : List Move) : moves.foldl Chronicle.step (r.first.step (.request q)) =
    after r.setup (r.before ++ .request q :: moves) :=
  (after_append r.setup r.before (.request q :: moves)).symm

/-- Without workspaces there is nothing to report. -/
theorem reply?_of_isEmpty (hO : O.Apart) {job : Nat → Job} (hq : q.fanOut? = some job)
    (hempty : O.state.registered = []) : r.reply? = some (.ok (.report (O.report []))) := by
  obtain ⟨pre, post, script, c, hmoves, hpre, hsession, -⟩ := r.exists_started hq
  have hnew : c.session.result? r.first.asked = none := by
    rw [hsession]
    exact r.result?_first
  have hstate : c.session.state = O.state := by
    rw [hsession]
    exact r.start
  have hreply : (pre.foldl Chronicle.step (r.first.step (.request q))).session.result?
      r.first.asked = some (.ok (.report (O.report []))) := by
    rw [hpre, hempty, List.map_nil, Chronicle.run, List.isEmpty_nil, if_pos rfl]
    refine Prog.Mild.result?_run (O := O) ?_ hnew
    have hmild := mild_rest hO (r.amid hO) r.first.asked []
    rw [hempty, ← hstate] at hmild
    exact hmild
  -- the reply is on record, and stays on record
  rw [r.after_first] at hreply
  have hcensus := census_after r.setup (r.before ++ .request q :: pre)
  have hlast := hcensus.renew.steps (resting_after _ _) (coherent_setup r.setup) post
  have hkept := hlast.kept _ _ ((hcensus.hosts _).symm.trans hreply)
  rw [← r.after_first, ← List.foldl_append, ← hmoves] at hkept hlast
  exact (hlast.hosts _).trans hkept

/-- With workspaces, the jobs are underway until nothing can go on. -/
theorem exists_underway (hO : O.Apart) {job : Nat → Job} (hq : q.fanOut? = some job)
    (hr : r.Acts) (hne : O.state.registered ≠ []) : ∃ h₀ d,
      Underway hO r.coherent job r.first.session.batches.length r.last r.setup.state O.state h₀ d
        r.last ∧
      (∀ index, d (.job r.first.session.batches.length index) = r.dealt index) ∧
      (∀ index n, O.state.registered[index]? = some n →
        h₀.reply? (.job r.first.session.batches.length index) = none) ∧
      h₀.reply? (.host r.first.asked) = none ∧
      r.last.history.story (.host r.first.asked) ≠ [] := by
  obtain ⟨pre, post, script, c, hmoves, hpre, hsession, hdealt⟩ := r.exists_started hq
  have hjobs : O.state.registered.map job ≠ [] := by simpa using hne
  have hby : ∀ rs, (Supervisor.rest r.first.asked O.state.registered rs).By
      (.host r.first.asked) := fun rs => Prog.by_bind _ fun _ => rfl
  rw [Chronicle.run, if_neg (by simpa using hne)] at hpre
  obtain ⟨c₁, hc₁⟩ : ∃ c₁, c₁ = pre.foldl Chronicle.step (r.first.step (.request q)) := ⟨_, rfl⟩
  have hsession₁ : c₁.session = Session.startBatch { r.first.session with script }
      (O.state.registered.map job) (Supervisor.rest r.first.asked O.state.registered) := by
    rw [hc₁, hpre, session_startBatch, hsession]
  have hcensus : Census [] none c₁ := by
    rw [hc₁, after_first]
    exact census_after _ _
  have hresting : c₁.Resting r.setup.state := by
    rw [hc₁, after_first]
    exact resting_after _ _
  have hlast : post.foldl Chronicle.step c₁ = r.last := by
    rw [hc₁, ← List.foldl_append, ← hmoves, last]
  have hdealt' : ∀ index, r.dealt index =
      dealtAll post c₁ (.job r.first.session.batches.length index) := fun index => by
    rw [dealt, hmoves, dealtAll_append, hdealt, ← hc₁, List.nil_append]
  -- the operation and its jobs have not ended yet
  have hopen : ∀ i, .host r.first.asked = i ∨ (∃ index n, O.state.registered[index]? = some n ∧
      .job r.first.session.batches.length index = i) → c₁.history.IsOpen i := by
    intro i hi
    rw [hcensus.whereabouts, hsession₁]
    refine .inl ((Session.standing_startBatch hby hjobs).2 (.inr (hi.imp_right ?_)))
    rintro ⟨index, n, hindex, rfl⟩
    exact ⟨index, job n, by rw [List.getElem?_map, hindex]; rfl, rfl⟩
  have hstart : Underway hO r.coherent job r.first.session.batches.length r.last r.setup.state
      O.state c₁.history (fun _ => []) c₁ :=
    .start (s := { r.first.session with script }) (r.amid hO) (Request.number_of_fanOut hq)
      hsession₁ (fun i x hx => r.not_stands i x (Session.Stands.congr hx rfl rfl rfl rfl rfl))
      r.start hcensus hresting
  have hunderway := hstart.steps (coherent_setup r.setup)
    (fun m hm => r.own m (hmoves ▸ List.mem_append_right _ hm)) hlast
    fun index n hindex b hb => hr index n hindex b (hdealt' index ▸ hb)
  have hbegun := (hopen _ (.inl rfl)).1
  refine ⟨c₁.history, _, hunderway, fun index => (hdealt' index).symm,
    fun index n hindex => (hopen _ (.inr ⟨index, n, hindex, rfl⟩)).2, (hopen _ (.inl rfl)).2, ?_⟩
  exact story_ne_nil_of_suffix (hlast ▸ suffix_steps c₁ post) hbegun

/-- Every job comes to what it comes to on its own, and the report says so. -/
theorem as_if_alone (hO : O.Apart) {job : Nat → Job} (hq : q.fanOut? = some job) (hr : r.Acts) :
    ∃ report, r.reply? = some (.ok (.report report)) ∧
      report.results.map CheckResult.workspace = O.state.registry.keys ∧
      ∀ index n, O.state.registered[index]? = some n → ∃ x σ,
        (job n).operation.run.alone (r.dealt index) O.state = some (x, σ) ∧
        report.results[index]? = some (O.noted n x) ∧ O.Twin n none r.last.session.state σ := by
  rw [← r.coherent.keys_registered]
  by_cases hempty : O.state.registered = []
  · refine ⟨_, r.reply?_of_isEmpty hO hq hempty, by simp [report, hempty], fun index n hindex => ?_⟩
    rw [hempty] at hindex
    exact absurd hindex (by simp)
  · obtain ⟨h₀, d, hunderway, hd, hjobs, hhost, hbegun⟩ := r.exists_underway hO hq hr hempty
    obtain ⟨rs, hrs, hreply⟩ := hunderway.exists_report r.idle hhost hbegun
    have halone : ∀ index n, O.state.registered[index]? = some n → ∃ x σ,
        (job n).operation.run.alone (r.dealt index) O.state = some (x, σ) ∧ rs[index]? = some x ∧
        (∀ a, x = .ok a → O.Names n a) ∧ O.Twin n none r.last.session.state σ := by
      intro index n hindex
      obtain ⟨x, hx, hreplied⟩ := hrs index n hindex
      obtain ⟨x', σ, hreplied', halone, hnames, htwin⟩ :=
        hunderway.alone r.idle hindex (hjobs index n hindex)
      obtain rfl := Reply.eq_of_map_checked (Option.some.inj (hreplied'.symm.trans hreplied))
      exact ⟨x', σ, hd index ▸ halone, hx, hnames, htwin⟩
    refine ⟨_, hreply, map_workspace_report fun index n hindex => ?_, fun index n hindex => ?_⟩
    · obtain ⟨x, _, -, hx, hnames, -⟩ := halone index n hindex
      exact ⟨x, hx, hnames⟩
    · obtain ⟨x, σ, halone, hx, -, htwin⟩ := halone index n hindex
      exact ⟨x, σ, halone, getElem?_report hindex hx, htwin⟩

end Run

end Outset

/-! ## Two runs -/

/-- The operations on all workspaces come to an end, and report on every workspace, in the order of
registration and under its key, whatever becomes of the jobs. If the child processes of a workspace
behave the same in two runs, it gets the same result, the same collection and the same handle,
whatever the child processes of the other workspaces do and in whatever order all of them end. -/
theorem fan_outs_agree {O : Outset} (hO : O.Apart) {q : Request} {job : Nat → Job}
    (hq : q.fanOut? = some job) :
    (∀ p : O.Course q, ∃ r : O.Run q, r.Completes p) ∧
    ∀ r r' : O.Run q, r.Acts → r'.Acts → ∃ report report',
      r.reply? = some (.ok (.report report)) ∧ r'.reply? = some (.ok (.report report')) ∧
      report.results.map CheckResult.workspace = O.state.registry.keys ∧
      report'.results.map CheckResult.workspace = O.state.registry.keys ∧
      ∀ index n, O.state.registered[index]? = some n →
        Behaviour.Agree (r.dealt index) (r'.dealt index) →
        report.results[index]? = report'.results[index]? ∧
        r.last.session.state.collection? (O.state.key n) =
          r'.last.session.state.collection? (O.state.key n) ∧
        r.last.session.state.handle? (O.state.key n) =
          r'.last.session.state.handle? (O.state.key n) := by
  refine ⟨Outset.Course.exists_run, fun r r' hr hr' => ?_⟩
  obtain ⟨report, hreply, hkeys, hjobs⟩ := r.as_if_alone hO hq hr
  obtain ⟨report', hreply', hkeys', hjobs'⟩ := r'.as_if_alone hO hq hr'
  refine ⟨report, report', hreply, hreply', hkeys, hkeys', fun index n hindex hagree => ?_⟩
  have hn := List.mem_of_getElem? hindex
  obtain ⟨x, σ, halone, hentry, htwin⟩ := hjobs index n hindex
  obtain ⟨x', σ', halone', hentry', htwin'⟩ := hjobs' index n hindex
  -- both runs are compared with the job alone
  cases Prog.alone_of_agree halone halone' hagree
  exact ⟨hentry.trans hentry'.symm,
    (htwin.collection?_eq hn).trans (htwin'.collection?_eq hn).symm,
    htwin.handle.trans htwin'.handle.symm⟩

/-! ### Two workspaces -/

/-- A setup with two directories, with one for the files of daemons, and with the two programs. -/
def Chronicle.Setup.pair : Setup :=
  let place := Files.Tree.locationOf
  let programs := ["/usr/bin/dmypy", "/usr/bin/mypy"].map place
  let directories := ["/a", "/b", "/tmp/mypyd"].map place
  let files := programs.foldl (fun t p => t.put p (.file [])) { executables := programs }
  { world := {
      files := directories.foldl (fun t p => t.put p .directory) files
      environment := Assoc.ofList [("PATH", "/usr/bin")] } }

/-- Both directories are registered. -/
def Chronicle.registering : List Move :=
  [.request (.add "/a" none), .take, .request (.add "/b" none), .take]

/-- Child processes leave files alone. -/
def Outset.pair : Outset where
  state := (after .pair registering).session.state
  acts _ b := b.writes = [] ∧ b.deletes = []
  worlds w := ∃ log stderr, w = (after .pair registering).session.state.world.aside log stderr

theorem Outset.still_pair : Outset.pair.Still where
  worlds _ := Iff.rfl
  acts _ _ hb := hb
  sinks := by decide +kernel
  unused := by decide +kernel
  settled := by decide +kernel

/-- A check of `/a` that finds something. -/
def Chronicle.findingInA : Behaviour :=
  { command := some "run", cwd := some "/a", exitCode := 1
    stdout := Text.encode "/a/x.py:1:1:1:2: error: Bad  [misc]\n".toList }

/-- The check of `/a` goes on when that of `/b` is over. -/
def Outset.runLate : Outset.pair.Run .recheckAll where
  setup := .pair
  before := registering
  moves := .respond [{ findingInA with held := true }] ::
    (List.replicate 4 Move.take ++ .release 0 :: List.replicate 4 Move.take)
  quiet := by decide +kernel
  start := rfl
  own := by decide
  idle := by decide +kernel

/-- A check of `/b` that finds the daemon stuck. -/
def Chronicle.stuckInB : Behaviour :=
  { command := some "run", cwd := some "/b", exitCode := 2
    stderr := Text.encode "Daemon has died\n".toList }

/-- The check of `/b` finds the daemon stuck, kills it and pauses. That of `/a` is noted in the
meantime. -/
def Outset.runPausing : Outset.pair.Run .recheckAll where
  setup := .pair
  before := registering
  moves := .respond [findingInA, stuckInB] ::
    (List.replicate 4 Move.take ++ .wake 0 :: List.replicate 2 Move.take)
  quiet := by decide +kernel
  start := rfl
  own := by decide
  idle := by decide +kernel

deriving instance DecidableEq for Behaviour

theorem Behaviour.agree_of_map_bare {ds ds' : List Behaviour} (h : ds.map bare = ds'.map bare) :
    Agree ds ds' := by
  intro k b b' hb hb'
  have hk := congrArg (fun xs => xs[k]?) h
  simpa [List.getElem?_map, hb, hb'] using hk

/-- How child processes behave in the two runs. -/
theorem Outset.dealt_runs :
    [runLate.dealt 0, runLate.dealt 1] = [[{ findingInA with held := true }], [{}]] ∧
      [runPausing.dealt 0, runPausing.dealt 1] = [[findingInA], [stuckInB, {}, {}]] := by
  decide +kernel

/-- Child processes that leave files alone behave as they may. -/
theorem Outset.acts_pair {q : Request} {r : Outset.pair.Run q} {ds : List (List Behaviour)}
    (hr : [r.dealt 0, r.dealt 1] = ds)
    (hds : ∀ bs ∈ ds, ∀ b ∈ bs, b.writes = [] ∧ b.deletes = []) : r.Acts := by
  intro index n hindex b hb
  have hlength : Outset.pair.state.registered.length = 2 := by decide +kernel
  have hlt := (List.getElem?_eq_some_iff.1 hindex).1
  have hmem : r.dealt index ∈ ds := by
    obtain rfl | rfl : index = 0 ∨ index = 1 := by omega
    · exact hr ▸ List.mem_cons_self
    · exact hr ▸ List.mem_cons_of_mem _ List.mem_cons_self
  exact hds _ hmem b hb

/-- The workspace `/a` comes to the same in both runs, whether the check of `/b` is over before its
own goes on or pauses when its own is over. -/
theorem fan_outs_agree_pair :
    ∃ report report', Outset.runLate.reply? = some (.ok (.report report)) ∧
      Outset.runPausing.reply? = some (.ok (.report report')) ∧
      report.results.map CheckResult.workspace = Outset.pair.state.registry.keys ∧
      report.results[0]? = report'.results[0]? ∧
      Outset.runLate.last.session.state.collection? "/a" =
        Outset.runPausing.last.session.state.collection? "/a" ∧
      Outset.runLate.last.session.state.handle? "/a" =
        Outset.runPausing.last.session.state.handle? "/a" := by
  obtain ⟨hlate, hpausing⟩ := Outset.dealt_runs
  obtain ⟨report, report', hreply, hreply', hkeys, -, hjobs⟩ :=
    (fan_outs_agree Outset.still_pair.apart (q := .recheckAll) rfl).2 Outset.runLate
      Outset.runPausing (Outset.acts_pair hlate (by simp [findingInA]))
      (Outset.acts_pair hpausing (by simp [findingInA, stuckInB]))
  have hregistered : Outset.pair.state.registered[0]? = some 0 := by decide +kernel
  have hkey : Outset.pair.state.key 0 = "/a" := by decide +kernel
  have hagree : Behaviour.Agree (Outset.runLate.dealt 0) (Outset.runPausing.dealt 0) := by
    rw [(List.cons.inj hlate).1, (List.cons.inj hpausing).1]
    exact Behaviour.agree_of_map_bare rfl
  have h := hjobs 0 0 hregistered hagree
  rw [hkey] at h
  exact ⟨report, report', hreply, hreply', hkeys, h⟩

end Overseer
