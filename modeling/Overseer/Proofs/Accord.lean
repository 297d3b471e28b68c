import Overseer.Proofs.Scheduling

set_option autoImplicit false

/-! # What tasks count on

While a task waits, the others go on. An accord says of each task what it can count on meanwhile
(`rely`), and of the rest of a task that it may go on from some state: it goes on whatever the
others do within what it counts on, and whenever it waits or ends, all others find what they
count on (`pause`). If everybody who begins may go on, then at every pause everybody still may
(`Accord.Holds`), and the history is that of tasks that may go on (`Accord.Dutiful`).

What a task goes on with may depend on its story and on how its child processes have behaved so
far. A child process that cannot be started is answered at once, before anybody else does
something, so its task goes on in the same state. -/

namespace Overseer

open History

/-! ## Dealing -/

/-- The state after the end of a child process. -/
def State.finished (s : State) (b : Behaviour) : State := { s with world := b.finish s.world }

/-- How the child processes behave that a task starts before it ends or has to wait. -/
def Session.dealt {ρ : Type} : Task ρ → Session ρ → List Behaviour
  | .done _, _ => []
  | .read k, s => dealt (k s.state) s
  | .write state k, s => dealt k { s with state }
  | .spawn call k, s =>
    let (behaviour, script) := Behaviour.take call s.script
    let s := { s with script, calls := s.calls ++ [call] }
    behaviour :: match behaviour.fault? with
      | some fault => dealt (k (.error fault)) s
      | none =>
        if behaviour.held then []
        else dealt (k (.ok (behaviour.ended call))) { s with state := s.state.finished behaviour }
  | .sleep _ _, _ => []
  | .lock l k, s => if (s.lock l).held then [] else dealt k (s.setLock l ⟨true, []⟩)
  | .unlock l k, s => dealt k (s.free l)
  | .gather jobs k, s => if jobs.isEmpty then dealt (k []) s else []

/-- Whether a task ends or waits. -/
def Prog.isPause {α : Type} : Prog α → Bool
  | done _ | spawn _ _ | sleep _ _ | lock _ _ | gather _ _ => true
  | read _ | write _ _ | unlock _ _ => false

/-! ## Ends -/

/-- The reply that a task ends with. -/
def Happening.reply? : Happening → Option (Except Fault Reply)
  | ended r => some r
  | _ => none

namespace History

/-- The reply with which a task has ended. -/
def reply? (h : History) (i : TaskId) : Option (Except Fault Reply) :=
  (h.story i).head?.bind (·.what.reply?)

theorem reply?_cons (m : Moment) (h : History) (j : TaskId) :
    reply? (m :: h) j = if m.who = j then m.what.reply? else h.reply? j := by
  rw [reply?, story_cons]
  split <;> rfl

end History

/-! ## Who is underway -/

namespace History

/-- Who is underway, if somebody is, and the state in which it went on: nobody waits or ends
without a moment of its own. -/
def underway? : History → Option (TaskId × State)
  | [] => none
  | m :: h => match m.what with
    | .resumed => some (m.who, m.state)
    | .left _ | .entered _ => underway? h
    | _ => none

theorem start_of_underway? {h : History} {i : TaskId} {b : State}
    (hrun : h.underway? = some (i, b)) : (h.story i).start = b := by
  induction h with
  | nil => exact absurd hrun (by simp [underway?])
  | cons m h ih =>
    obtain ⟨who, what, s⟩ := m
    cases what with
    | resumed =>
      cases hrun
      rw [story_cons, if_pos rfl]
      rfl
    | left l | entered l =>
      rw [story_cons]
      split
      · exact ih hrun
      · exact ih hrun
    | _ => exact absurd hrun (by simp [underway?])

end History

theorem History.mem_of_underway? {h : History} {i : TaskId} {b : State}
    (hrun : h.underway? = some (i, b)) : ⟨i, .resumed, b⟩ ∈ h := by
  induction h with
  | nil => exact absurd hrun (by simp [underway?])
  | cons m h ih =>
    obtain ⟨who, what, s⟩ := m
    cases what with
    | resumed =>
      cases hrun
      exact List.mem_cons_self
    | left l | entered l => exact List.mem_cons_of_mem _ (ih hrun)
    | _ => exact absurd hrun (by simp [underway?])

/-! ## Accords -/

/-- What tasks count on, and how they may go on. -/
structure Accord where
  /-- What a task counts on while it waits. -/
  rely : TaskId → State → State → Prop
  /-- How the child processes of a task may behave. -/
  deals : TaskId → Behaviour → Prop
  /-- What the jobs of a batch may result in. -/
  gives : Nat → List (Except Fault CheckResult) → Prop
  /-- A task may go on, after some story and after child processes that behaved in some way. -/
  goesOn : TaskId → Task Reply → History → List Behaviour → State → Prop
  rely_refl : ∀ i s, rely i s s
  rely_trans : ∀ {i s s' s''}, rely i s s' → rely i s' s'' → rely i s s''
  rely_finished : ∀ {i j b} (s : State), deals i b → j ≠ i → rely j s (s.finished b)
  /-- Whoever ends or waits has done nothing that others do not count on. -/
  pause : ∀ {i t h d s}, goesOn i t h d s → t.isPause = true → ∀ j, j ≠ i → rely j h.start s
  read : ∀ {i k h d s}, goesOn i (.read k) h d s → goesOn i (k s) h d s
  write : ∀ {i s' k h d s}, goesOn i (.write s' k) h d s → goesOn i k h d s'
  refused : ∀ {i call k h d s b e}, goesOn i (.spawn call k) h d s → deals i b →
    b.fault? = some e → goesOn i (k (.error e)) (⟨i, .resumed, s⟩ :: ⟨i, .returned (.error e), s⟩ ::
      ⟨i, .spawned call, s⟩ :: h) (d ++ [b]) s
  answered : ∀ {i call k h d s b}, goesOn i (.spawn call k) h d s → deals i b → b.fault? = none →
    ∀ s₁ s₂, s.Onward s₁ → rely i s s₁ → (s₁.finished b).Onward s₂ → rely i (s₁.finished b) s₂ →
      goesOn i (k (.ok (b.ended call))) (⟨i, .resumed, s₂⟩ ::
        ⟨i, .returned (.ok (b.ended call)), s₁.finished b⟩ :: ⟨i, .spawned call, s⟩ :: h)
        (d ++ [b]) s₂
  slept : ∀ {i ms k h d s}, goesOn i (.sleep ms k) h d s → ∀ s₁, s.Onward s₁ → rely i s s₁ →
    goesOn i k (⟨i, .resumed, s₁⟩ :: ⟨i, .slept ms, s⟩ :: h) d s₁
  entered : ∀ {i l k h d s}, goesOn i (.lock l k) h d s → ∀ s₁ s₂, s.Onward s₂ → rely i s s₂ →
    goesOn i k (⟨i, .resumed, s₂⟩ :: ⟨i, .entered l, s₁⟩ :: ⟨i, .reached l, s⟩ :: h) d s₂
  left : ∀ {i l k h d s}, goesOn i (.unlock l k) h d s → goesOn i k (⟨i, .left l, s⟩ :: h) d s
  gathered : ∀ {i jobs k h d s}, goesOn i (.gather jobs k) h d s →
    ∀ rs, (rs = [] ∨ ∃ n, gives n rs) → ∀ s₁, s.Onward s₁ → rely i s s₁ →
      goesOn i (k rs) (⟨i, .resumed, s₁⟩ :: ⟨i, .gathered jobs, s⟩ :: h) d s₁
  /-- Whoever starts jobs sees to it that they may begin. -/
  jobs : ∀ {i jobs k h d s}, goesOn i (.gather jobs k) h d s → ∀ batch index job,
    jobs[index]? = some job → job.number < s.registrations.length → ∀ s₁, s.Onward s₁ →
    rely (.job batch index) s s₁ → goesOn (.job batch index) (Session.jobTask batch index job)
      (opening (.job batch index) (.job job) s s₁) [] s₁

namespace Accord

variable (A : Accord)

/-- Whoever stands somewhere may go on from there, whatever the others do before. -/
def Waits (b : State) (h : History) (d : List Behaviour) (i : TaskId) : Station → Prop
  | .nowhere | .running => True
  | .queue t | .asleep _ t => ∀ s, b.Onward s → A.rely i b s →
      A.goesOn i t (⟨i, .resumed, s⟩ :: h) d s
  | .lock l t => ∀ s₁ s₂, b.Onward s₂ → A.rely i b s₂ →
      A.goesOn i t (⟨i, .resumed, s₂⟩ :: ⟨i, .entered l, s₁⟩ :: h) d s₂
  | .child _ x => A.deals i x.behaviour ∧ ∀ s₁ s₂, b.Onward s₁ → A.rely i b s₁ →
      (s₁.finished x.behaviour).Onward s₂ → A.rely i (s₁.finished x.behaviour) s₂ →
      A.goesOn i (x.resume (.ok (x.behaviour.ended x.call))) (⟨i, .resumed, s₂⟩ ::
        ⟨i, .returned (.ok (x.behaviour.ended x.call)), s₁.finished x.behaviour⟩ :: h) d s₂
  | .batch n resume => ∀ rs, A.gives n rs → ∀ s, b.Onward s → A.rely i b s →
      A.goesOn i (resume rs) (⟨i, .resumed, s⟩ :: h) d s

variable {A} in
theorem Waits.later {b b' : State} {h : History} {d : List Behaviour} {i : TaskId} {x : Station}
    (hx : A.Waits b h d i x) (hon : b.Onward b') (hb : A.rely i b b') : A.Waits b' h d i x := by
  cases x with
  | nowhere | running => trivial
  | queue t | asleep n t => exact fun s hs hrely => hx s (hon.trans hs) (A.rely_trans hb hrely)
  | lock l t => exact fun s₁ s₂ hs hrely => hx s₁ s₂ (hon.trans hs) (A.rely_trans hb hrely)
  | child n x =>
    exact ⟨hx.1, fun s₁ s₂ hs hrely => hx.2 s₁ s₂ (hon.trans hs) (A.rely_trans hb hrely)⟩
  | batch n resume =>
    exact fun rs hrs s hs hrely => hx rs hrs s (hon.trans hs) (A.rely_trans hb hrely)

/-- The histories of tasks that may go on, with the state at the last wait, from some history on.
Whoever does something that others can notice has gone on in that state. -/
inductive Dutiful (s₀ : State) (h₀ : History) : State → History → Prop
  | nil : Dutiful s₀ h₀ s₀ h₀
  | asked {b : State} {h : History} (i : TaskId) (r : Request) (hb : Dutiful s₀ h₀ b h)
    (hnew : h.story i = []) : Dutiful s₀ h₀ b (⟨i, .asked r, b⟩ :: h)
  | resumed {b : State} {h : History} (i : TaskId) (hb : Dutiful s₀ h₀ b h) :
    Dutiful s₀ h₀ b (⟨i, .resumed, b⟩ :: h)
  | spawned {b s : State} {h : History} (i : TaskId) (c : Call) (hb : Dutiful s₀ h₀ b h)
    (hrun : h.underway? = some (i, b)) (hgo : ∃ k d, A.goesOn i (.spawn c k) (h.story i) d s) :
    Dutiful s₀ h₀ s (⟨i, .spawned c, s⟩ :: h)
  | refused {b s : State} {h : History} (i : TaskId) (c : Call) (e : Fault)
    (hb : Dutiful s₀ h₀ b h) (hrun : h.underway? = some (i, b))
    (hgo : ∃ k d, A.goesOn i (.spawn c k) (h.story i) d s) :
    Dutiful s₀ h₀ s (⟨i, .resumed, s⟩ :: ⟨i, .returned (.error e), s⟩ :: ⟨i, .spawned c, s⟩ :: h)
  | slept {b s : State} {h : History} (i : TaskId) (ms : Int) (hb : Dutiful s₀ h₀ b h)
    (hrun : h.underway? = some (i, b)) (hgo : ∃ k d, A.goesOn i (.sleep ms k) (h.story i) d s) :
    Dutiful s₀ h₀ s (⟨i, .slept ms, s⟩ :: h)
  | outside {b : State} {h : History} (w : World) (hb : Dutiful s₀ h₀ b h) :
    Dutiful s₀ h₀ { b with world := w } h
  | returned {b : State} {h : History} (i : TaskId) (e : Ended) (w : World)
    (hb : Dutiful s₀ h₀ b h) :
    Dutiful s₀ h₀ { b with world := w } (⟨i, .returned (.ok e), { b with world := w }⟩ :: h)
  | reached {b s : State} {h : History} (i : TaskId) (l : Nat) (hb : Dutiful s₀ h₀ b h)
    (hrun : h.underway? = some (i, b)) (hgo : ∃ k d, A.goesOn i (.lock l k) (h.story i) d s) :
    Dutiful s₀ h₀ s (⟨i, .reached l, s⟩ :: h)
  | entered {b s : State} {h : History} (i : TaskId) (l : Nat) (hb : Dutiful s₀ h₀ b h) :
    Dutiful s₀ h₀ b (⟨i, .entered l, s⟩ :: h)
  | left {b s : State} {h : History} (i : TaskId) (l : Nat) (hb : Dutiful s₀ h₀ b h)
    (hrun : h.underway? = some (i, b)) (hgo : ∃ k d, A.goesOn i (.unlock l k) (h.story i) d s) :
    Dutiful s₀ h₀ b (⟨i, .left l, s⟩ :: h)
  | gathered {b s : State} {h : History} (i : TaskId) (jobs : List Job) (hb : Dutiful s₀ h₀ b h)
    (hrun : h.underway? = some (i, b)) (hgo : ∃ k d, A.goesOn i (.gather jobs k) (h.story i) d s) :
    Dutiful s₀ h₀ s (⟨i, .gathered jobs, s⟩ :: h)
  | ended {b s : State} {h : History} (i : TaskId) (f : Finished Reply) (hb : Dutiful s₀ h₀ b h)
    (hrun : h.underway? = some (i, b)) (hgo : ∃ d, A.goesOn i (.done f) (h.story i) d s) :
    Dutiful s₀ h₀ s (⟨i, .ended f.reply, s⟩ :: h)

/-- What has happened up to a moment at which somebody goes on, waits or ends is a history of tasks
that may go on, too. -/
theorem Dutiful.suffix {A : Accord} {s₀ b : State} {m : Moment} {past h : History}
    (hb : A.Dutiful s₀ [] b h) (hm : m :: past <:+ h)
    (hwhat : m.what = .resumed ∨ m.what.isPause = true) : A.Dutiful s₀ [] m.state (m :: past) := by
  have hnot : ∀ {m' : Moment} {h : History}, m'.what ≠ .resumed → m'.what.isPause = false →
      m :: past <:+ m' :: h → (m :: past <:+ h → A.Dutiful s₀ [] m.state (m :: past)) →
      A.Dutiful s₀ [] m.state (m :: past) := by
    intro m' h hresumed hpause hm ih
    rcases List.suffix_cons_iff.1 hm with heq | hm
    · cases heq
      exact absurd hwhat (by simp [hresumed, hpause])
    · exact ih hm
  have hsame : ∀ {m' : Moment} {h : History}, m :: past <:+ m' :: h →
      A.Dutiful s₀ [] m'.state (m' :: h) → (m :: past <:+ h → A.Dutiful s₀ [] m.state (m :: past)) →
      A.Dutiful s₀ [] m.state (m :: past) := by
    intro m' h hm hdutiful ih
    rcases List.suffix_cons_iff.1 hm with heq | hm
    · cases heq
      exact hdutiful
    · exact ih hm
  induction hb with
  | nil => exact absurd (List.suffix_nil.1 hm) (by simp)
  | asked i r hb hnew ih => exact hnot (by simp) rfl hm ih
  | resumed i hb ih => exact hsame hm (.resumed i hb) ih
  | spawned i c hb hrun hgo ih => exact hsame hm (.spawned i c hb hrun hgo) ih
  | refused i c e hb hrun hgo ih =>
    exact hsame hm (.refused i c e hb hrun hgo) fun hm =>
      hnot (by simp) rfl hm fun hm => hsame hm (.spawned i c hb hrun hgo) ih
  | slept i ms hb hrun hgo ih => exact hsame hm (.slept i ms hb hrun hgo) ih
  | outside w hb ih => exact ih hm
  | returned i e w hb ih => exact hnot (by simp) rfl hm ih
  | reached i l hb hrun hgo ih => exact hsame hm (.reached i l hb hrun hgo) ih
  | entered i l hb ih => exact hnot (by simp) rfl hm ih
  | left i l hb hrun hgo ih => exact hnot (by simp) rfl hm ih
  | gathered i jobs hb hrun hgo ih => exact hsame hm (.gathered i jobs hb hrun hgo) ih
  | ended i f hb hrun hgo ih => exact hsame hm (.ended i f hb hrun hgo) ih

end Accord

/-! ## Who stands where -/

/-- A task stands somewhere in a session. -/
def Session.Stands (s : Session Reply) (i : TaskId) : Station → Prop
  | .nowhere | .running => False
  | .queue t => t ∈ s.tasks ∧ t.owner = i
  | .lock l t => t ∈ (s.lock l).waiting ∧ t.owner = i
  | .child n x => s.held.get? n = some x ∧ ∀ e, (x.resume e).By i
  | .asleep n t => s.asleep.get? n = some t ∧ t.owner = i
  | .batch n resume => (∃ x, s.batches[n]? = some x ∧ x.noted < x.results.length ∧
      x.resume = resume) ∧ ∀ rs, (resume rs).By i

/-- In a sound chronicle everybody stands where the table says. -/
theorem Sound.place_of_stands {s₀ b : State} {who : Option TaskId} {place : TaskId → Station}
    {c : Chronicle} {i : TaskId} {x : Station} (hc : Sound s₀ b who place c)
    (hx : c.session.Stands i x) : place i = x := by
  cases x with
  | nowhere | running => exact absurd hx id
  | queue t =>
    obtain ⟨ht, rfl⟩ := hx
    exact hc.layout.queue t ht
  | lock l t =>
    obtain ⟨ht, rfl⟩ := hx
    exact hc.layout.lock l t ht
  | child n x =>
    obtain ⟨-, j, hj⟩ := hc.layout.child n x hx.1
    have hwell := hc.well j
    rw [hj] at hwell
    have howner := (hwell.1 (.error (.unknownWorkspace ""))).owner
    rw [(hx.2 _).owner] at howner
    rw [howner]
    exact hj
  | asleep n t =>
    obtain ⟨ht, rfl⟩ := hx
    exact (hc.layout.sleeper n t ht).2
  | batch n resume =>
    obtain ⟨⟨x, hget, hnoted, rfl⟩, hby⟩ := hx
    obtain ⟨j, hj⟩ := hc.layout.batch n x hget hnoted
    have hwell := hc.well j
    rw [hj] at hwell
    have howner := (hwell.1 []).owner
    rw [(hby _).owner] at howner
    rw [howner]
    exact hj

namespace Session

variable {s s' : Session Reply} {i j : TaskId} {x : Station}

/-- Where tasks stand does not depend on the rest of a session. -/
theorem Stands.congr (hx : s'.Stands i x) (hready : s'.tasks = s.tasks)
    (hlocks : s'.locks = s.locks) (hheld : s'.held = s.held) (hasleep : s'.asleep = s.asleep)
    (hbatches : s'.batches = s.batches) : s.Stands i x := by
  cases x with
  | nowhere | running => exact hx
  | queue t => exact ⟨hready ▸ hx.1, hx.2⟩
  | lock l t => exact ⟨by rw [lock, ← hlocks]; exact hx.1, hx.2⟩
  | child n x => exact ⟨hheld ▸ hx.1, hx.2⟩
  | asleep n t => exact ⟨hasleep ▸ hx.1, hx.2⟩
  | batch n resume => exact ⟨by rw [← hbatches]; exact hx.1, hx.2⟩

theorem stands_enqueue {t : Task Reply} (hx : (s.enqueue (.task t)).Stands j x) :
    s.Stands j x ∨ x = .queue t ∧ t.owner = j := by
  cases x with
  | queue t' =>
    obtain ⟨ht, rfl⟩ := hx
    rw [tasks_enqueue, List.mem_append, List.mem_singleton] at ht
    rcases ht with ht | rfl
    · exact .inl ⟨ht, rfl⟩
    · exact .inr ⟨rfl, rfl⟩
  | _ => exact .inl hx

theorem stands_setLock {l : Nat} {y : Lock Reply} (hx : (s.setLock l y).Stands j x) :
    s.Stands j x ∨ ∃ t ∈ y.waiting, x = .lock l t ∧ t.owner = j := by
  cases x with
  | lock l' t =>
    obtain ⟨ht, rfl⟩ := hx
    rw [lock_setLock] at ht
    split at ht
    · next hl =>
      subst hl
      exact .inr ⟨t, ht, rfl, rfl⟩
    · exact .inl ⟨ht, rfl⟩
  | _ => exact .inl hx

theorem state_startBatch (s : Session Reply) (jobs : List Job)
    (resume : List (Except Fault CheckResult) → Task Reply) :
    (s.startBatch jobs resume).state = s.state := by
  have hfold : ∀ (batch : Nat) (js : List (Job × Nat)) (s : Session Reply),
      (js.foldl (fun s j => s.enqueue (.task (jobTask batch j.2 j.1))) s).state = s.state := by
    intro batch js
    induction js with
    | nil => exact fun _ => rfl
    | cons j js ih => exact fun s => ih _
  exact hfold _ _ _

theorem state_noteJob (s : Session Reply) (batch : Nat) : (s.noteJob batch).state = s.state := by
  rw [noteJob]
  split
  · rfl
  · dsimp only
    split <;> rfl

theorem stands_finish {f : Finished Reply} (hx : (s.finish f).Stands j x) : s.Stands j x := by
  cases f with
  | host step r => exact hx
  | job batch index r =>
    cases x with
    | queue t =>
      refine ⟨?_, hx.2⟩
      have ht := hx.1
      simpa [tasks, finish, enqueue, Ready.task?] using ht
    | batch n resume =>
      obtain ⟨⟨y, hy, hnoted, hresume⟩, hby⟩ := hx
      refine ⟨?_, hby⟩
      replace hy := (List.getElem?_modify _ _ _ _).symm.trans hy
      obtain ⟨z, hz, rfl⟩ := Option.map_eq_some_iff.1 hy
      refine ⟨z, hz, ?_⟩
      by_cases hn : batch = n
      · rw [if_pos hn] at hnoted hresume
        exact ⟨by simpa using hnoted, hresume⟩
      · rw [if_neg hn] at hnoted hresume
        exact ⟨hnoted, hresume⟩
    | _ => exact hx

end Session

/-! ## Holding to an accord -/

/-- Everybody who stands somewhere may go on, whoever has ended still finds what it counts on,
and the history is that of tasks that may go on. -/
structure Accord.Holds (A : Accord) (s₀ : State) (h₀ : History) (b : State)
    (d : TaskId → List Behaviour) (who : Option TaskId) (c : Chronicle) : Prop where
  dutiful : A.Dutiful s₀ h₀ b c.history
  waits : ∀ i x, c.session.Stands i x → A.Waits b (c.history.story i) (d i) i x
  ended : ∀ i, who ≠ some i → h₀.reply? i = none → ∀ r s h,
    c.history.story i = ⟨i, .ended r, s⟩ :: h →
      (∃ f : Finished Reply, f.reply = r ∧ A.goesOn i (.done f) h (d i) s) ∧ A.rely i s b
  fresh : ∀ i, c.history.story i = [] → d i = []

namespace Accord.Holds

variable {A : Accord} {s₀ sᵢ b b' : State} {h₀ : History} {d d' : TaskId → List Behaviour}
  {who who' : Option TaskId} {c c' : Chronicle} {i : TaskId} {place : TaskId → Station}

/-- A task does something, and may go elsewhere; all others stay where they are. -/
theorem move (hH : A.Holds s₀ h₀ b d (some i) c) (hdutiful : A.Dutiful s₀ h₀ b' c'.history)
    (hon : b.Onward b') (hrely : ∀ j, j ≠ i → A.rely j b b')
    (hstory : ∀ j, j ≠ i → c'.history.story j = c.history.story j)
    (hd : ∀ j, j ≠ i → d' j = d j)
    (hothers : ∀ j x, j ≠ i → c'.session.Stands j x → c.session.Stands j x)
    (hself : ∀ x, c'.session.Stands i x → A.Waits b' (c'.history.story i) (d' i) i x)
    (hended : who' ≠ some i → h₀.reply? i = none → ∀ r s h,
      c'.history.story i = ⟨i, .ended r, s⟩ :: h →
      (∃ f : Finished Reply, f.reply = r ∧ A.goesOn i (.done f) h (d' i) s) ∧ A.rely i s b')
    (hnew : c'.history.story i ≠ []) : A.Holds s₀ h₀ b' d' who' c' := by
  refine ⟨hdutiful, fun j x hx => ?_, fun j hj hj₀ r s h hh => ?_, fun j hj => ?_⟩
  · by_cases hji : j = i
    · subst hji
      exact hself x hx
    · rw [hstory j hji, hd j hji]
      exact (hH.waits j x (hothers j x hji hx)).later hon (hrely j hji)
  · by_cases hji : j = i
    · subst hji
      exact hended hj hj₀ r s h hh
    · rw [hstory j hji] at hh
      rw [hd j hji]
      obtain ⟨hf, hs⟩ := hH.ended j (fun h => hji (Option.some.inj h).symm) hj₀ r s h hh
      exact ⟨hf, A.rely_trans hs (hrely j hji)⟩
  · by_cases hji : j = i
    · subst hji
      exact absurd hj hnew
    · rw [hstory j hji] at hj
      rw [hd j hji]
      exact hH.fresh j hj

/-- A running task goes on running, after moments of its own. -/
theorem note (hH : A.Holds s₀ h₀ b d (some i) c) (hc : c.Running sᵢ b i place)
    (ms : List Moment) (hms : ∀ m ∈ ms, m.who = i) (hhistory : c'.history = ms ++ c.history)
    (hdutiful : A.Dutiful s₀ h₀ b' (ms ++ c.history)) (hon : b.Onward b')
    (hrely : ∀ j, j ≠ i → A.rely j b b') (hd : ∀ j, j ≠ i → d' j = d j)
    (hstands : ∀ j x, c'.session.Stands j x → c.session.Stands j x) :
    A.Holds s₀ h₀ b' d' (some i) c' := by
  have hstory : ∀ j, j ≠ i → c'.history.story j = c.history.story j := by
    intro j hji
    have hnone : story ms j = [] := by
      rw [story, List.filter_eq_nil_iff]
      intro m hm
      simpa [hms m hm] using Ne.symm hji
    rw [hhistory, story, List.filter_append, ← story, ← story, hnone, List.nil_append]
  have hi := hc.sound.place_running
  refine hH.move (hhistory ▸ hdutiful) hon hrely hstory hd (fun j x _ hx => hstands j x hx)
    (fun x hx => ?_) (fun h => absurd rfl h) ?_
  · have hplace := hc.sound.place_of_stands (hstands i x hx)
    rw [hi] at hplace
    rw [← hplace]
    trivial
  · have hne := hc.sound.story_ne_nil (i := i) (by simp [hi])
    rw [hhistory, story, List.filter_append, ← story, ← story]
    exact List.append_ne_nil_of_right_ne_nil _ hne

/-- Parts of a session that have nothing to do with where tasks stand may change. -/
theorem onSession (hH : A.Holds s₀ h₀ b d who c) {f : Session Reply → Session Reply}
    (hstands : ∀ j x, (f c.session).Stands j x → c.session.Stands j x) :
    A.Holds s₀ h₀ b d who (c.onSession f) :=
  ⟨hH.dutiful, fun j x hx => hH.waits j x (hstands j x hx), hH.ended, hH.fresh⟩

/-- Where somebody stands who is not running, another one stands who is. -/
theorem not_stands (hc : c.Running sᵢ b i place) {x : Station} : ¬ c.session.Stands i x := by
  intro hx
  have hplace := hc.sound.place_of_stands hx
  rw [hc.sound.place_running] at hplace
  rw [← hplace] at hx
  exact hx

/-! ## Running -/

/-- A running task ends. -/
theorem finish (hH : A.Holds s₀ h₀ b d (some i) c) (hc : c.Running sᵢ b i place)
    (hrun : c.history.underway? = some (i, b)) {f : Finished Reply}
    (hon : b.Onward c.session.state)
    (hgo : A.goesOn i (.done f) (c.history.story i) (d i) c.session.state) :
    A.Holds s₀ h₀ c.session.state d none ((c.note i (.ended f.reply)).onSession (·.finish f)) := by
  have hstart := start_of_underway? hrun
  have hstory : ∀ j, j ≠ i → (c.note i (.ended f.reply)).history.story j = c.history.story j :=
    fun j hj => story_cons_of_ne _ (Ne.symm hj)
  refine hH.move (.ended i f hH.dutiful hrun ⟨_, hgo⟩) hon
    (fun j hj => hstart ▸ A.pause hgo rfl j hj) hstory (fun _ _ => rfl)
    (fun j x _ hx => Session.stands_finish hx)
    (fun x hx => absurd (Session.stands_finish hx) (not_stands hc)) (fun _ _ r s h hh => ?_) ?_
  · have hself := (Chronicle.story_note c i (.ended f.reply)).symm.trans hh
    simp only [List.cons.injEq, Moment.mk.injEq, Happening.ended.injEq, true_and] at hself
    obtain ⟨⟨hr, rfl⟩, rfl⟩ := hself
    exact ⟨⟨f, hr, hgo⟩, A.rely_refl i _⟩
  · show (c.note i (.ended f.reply)).history.story i ≠ []
    rw [Chronicle.story_note]
    simp

/-- A running task waits for a child process. -/
theorem hold (hH : A.Holds s₀ h₀ b d (some i) c) (hc : c.Running sᵢ b i place)
    (hrun : c.history.underway? = some (i, b)) (hon : b.Onward c.session.state) {call : Call}
    {k : Except Fault Ended → Task Reply} {behaviour : Behaviour} (hby : ∀ e, (k e).By i)
    (hgo : A.goesOn i (.spawn call k) (c.history.story i) (d i) c.session.state)
    (hdeals : A.deals i behaviour) (hfault : behaviour.fault? = none) :
    A.Holds s₀ h₀ c.session.state (Function.update d i (d i ++ [behaviour])) none
      ((c.spawned i call).onSession fun s =>
        { s with held := s.held.insert c.session.calls.length ⟨call, behaviour, k⟩ }) := by
  have hstart := start_of_underway? hrun
  have hstory : (c.spawned i call).history.story i =
      ⟨i, .spawned call, c.session.state⟩ :: c.history.story i := Chronicle.story_note c i _
  have hstands : ∀ j x, ((c.spawned i call).onSession fun s =>
      { s with held := s.held.insert c.session.calls.length ⟨call, behaviour, k⟩ }).session.Stands
        j x → c.session.Stands j x ∨ (∃ n, x = .child n ⟨call, behaviour, k⟩) ∧ j = i := by
    intro j x hx
    cases x with
    | child n x =>
      obtain ⟨hget, hx⟩ := hx
      replace hget := (Assoc.get?_insert _ _ _ _).symm.trans hget
      split at hget
      · cases hget
        refine .inr ⟨⟨n, rfl⟩, ?_⟩
        rw [← (hx (.error (.unknownWorkspace ""))).owner, (hby _).owner]
      · exact .inl ⟨hget, hx⟩
    | _ => exact .inl hx
  refine hH.move (.spawned i call hH.dutiful hrun ⟨k, _, hgo⟩) hon
    (fun j hj => hstart ▸ A.pause hgo rfl j hj) (fun j hj => story_cons_of_ne _ (Ne.symm hj))
    (fun j hj => Function.update_of_ne hj _ _)
    (fun j x hj hx => (hstands j x hx).resolve_right fun h => hj h.2) (fun x hx => ?_) ?_ ?_
  · rcases hstands i x hx with hx | ⟨⟨n, rfl⟩, -⟩
    · exact absurd hx (not_stands hc)
    · show A.Waits _ ((c.spawned i call).history.story i) _ i _
      rw [hstory, Function.update_self]
      exact ⟨hdeals, A.answered hgo hdeals hfault⟩
  · intro _ _ r s h hh
    replace hh := hstory.symm.trans hh
    simp at hh
  · show (c.spawned i call).history.story i ≠ []
    rw [hstory]
    simp

/-- A running task lies down to sleep. -/
theorem lieDown (hH : A.Holds s₀ h₀ b d (some i) c) (hc : c.Running sᵢ b i place)
    (hrun : c.history.underway? = some (i, b)) (hon : b.Onward c.session.state) {ms : Int}
    {t : Task Reply} (hby : t.By i)
    (hgo : A.goesOn i (.sleep ms t) (c.history.story i) (d i) c.session.state) :
    A.Holds s₀ h₀ c.session.state d none (c.lieDown i ms t) := by
  have hstart := start_of_underway? hrun
  have hstory : (c.lieDown i ms t).history.story i =
      ⟨i, .slept ms, c.session.state⟩ :: c.history.story i := Chronicle.story_note c i _
  have hstands : ∀ j x, (c.lieDown i ms t).session.Stands j x →
      c.session.Stands j x ∨ (∃ n, x = .asleep n t) ∧ j = i := by
    intro j x hx
    cases x with
    | asleep n t' =>
      obtain ⟨hget, rfl⟩ := hx
      replace hget := (Assoc.get?_insert _ _ _ _).symm.trans hget
      split at hget
      · cases hget
        exact .inr ⟨⟨n, rfl⟩, hby.owner⟩
      · exact .inl ⟨hget, rfl⟩
    | _ => exact .inl hx
  refine hH.move (.slept i ms hH.dutiful hrun ⟨t, _, hgo⟩) hon
    (fun j hj => hstart ▸ A.pause hgo rfl j hj) (fun j hj => story_cons_of_ne _ (Ne.symm hj))
    (fun _ _ => rfl) (fun j x hj hx => (hstands j x hx).resolve_right fun h => hj h.2)
    (fun x hx => ?_) (fun _ _ r s h hh => ?_) ?_
  · rcases hstands i x hx with hx | ⟨⟨n, rfl⟩, -⟩
    · exact absurd hx (not_stands hc)
    · rw [hstory]
      exact A.slept hgo
  · rw [hstory] at hh
    simp at hh
  · rw [hstory]
    simp

/-- A running task waits for a lock. -/
theorem await (hH : A.Holds s₀ h₀ b d (some i) c) (hc : c.Running sᵢ b i place)
    (hrun : c.history.underway? = some (i, b)) (hon : b.Onward c.session.state) {l : Nat}
    {t : Task Reply} (hby : t.By i)
    (hgo : A.goesOn i (.lock l t) (c.history.story i) (d i) c.session.state) :
    A.Holds s₀ h₀ c.session.state d none (c.await i l t) := by
  have hstart := start_of_underway? hrun
  have hstory : (c.await i l t).history.story i =
      ⟨i, .reached l, c.session.state⟩ :: c.history.story i := Chronicle.story_note c i _
  have hstands : ∀ j x, (c.await i l t).session.Stands j x →
      c.session.Stands j x ∨ x = .lock l t ∧ j = i := by
    intro j x hx
    rcases Session.stands_setLock hx with hx | ⟨t', ht', rfl, rfl⟩
    · exact .inl hx
    · rcases List.mem_append.1 ht' with ht' | ht'
      · exact .inl ⟨ht', rfl⟩
      · rw [List.mem_singleton.1 ht']
        exact .inr ⟨rfl, hby.owner⟩
  refine hH.move (.reached i l hH.dutiful hrun ⟨t, _, hgo⟩) hon
    (fun j hj => hstart ▸ A.pause hgo rfl j hj) (fun j hj => story_cons_of_ne _ (Ne.symm hj))
    (fun _ _ => rfl) (fun j x hj hx => (hstands j x hx).resolve_right fun h => hj h.2)
    (fun x hx => ?_) (fun _ _ r s h hh => ?_) ?_
  · rcases hstands i x hx with hx | ⟨rfl, -⟩
    · exact absurd hx (not_stands hc)
    · rw [hstory]
      exact A.entered hgo
  · rw [hstory] at hh
    simp at hh
  · rw [hstory]
    simp

/-- A lock is given back, and handed over if somebody waits for it. -/
theorem leave (hH : A.Holds s₀ h₀ b d (some i) c) (hc : c.Running sᵢ b i place)
    (hrun : c.history.underway? = some (i, b)) (hrefl : b.Onward b) {l : Nat} {k : Task Reply}
    (hgo : A.goesOn i (.unlock l k) (c.history.story i) (d i) c.session.state) :
    A.Holds s₀ h₀ b d (some i) (c.leave i l) := by
  have hleft : A.Dutiful s₀ h₀ b (c.note i (.left l)).history :=
    .left i l hH.dutiful hrun ⟨k, _, hgo⟩
  rw [Chronicle.leave]
  cases hwaiting : (c.session.lock l).waiting with
  | nil =>
    refine hH.note hc [⟨i, .left l, c.session.state⟩] (by simp) rfl hleft hrefl
      (fun j _ => A.rely_refl j b) (fun _ _ => rfl) fun j x hx => ?_
    have hfree : c.session.free l = c.session.setLock l {} := by rw [Session.free, hwaiting]
    replace hx : (c.session.free l).Stands j x := hx
    rw [hfree] at hx
    exact (Session.stands_setLock hx).resolve_right (by simp)
  | cons t rest =>
    have hfree : c.session.free l = (c.session.setLock l ⟨true, rest⟩).enqueue (.task t) := by
      rw [Session.free, hwaiting]
    have hlock : c.session.Stands t.owner (.lock l t) := ⟨by simp [hwaiting], rfl⟩
    have hti : t.owner ≠ i := fun h => not_stands hc (h ▸ hlock)
    have hnodup : ((c.session.lock l).waiting.map Prog.owner).Nodup := by
      have harrivals := hc.sound.lawful.nodup_arrivals l
      rw [hc.locking.arrivals] at harrivals
      exact (List.reverse_perm _).nodup_iff.1 (List.nodup_append.1 harrivals).1
    have hstands : ∀ j x, ((c.session.setLock l ⟨true, rest⟩).enqueue (.task t)).Stands j x →
        c.session.Stands j x ∧ j ≠ t.owner ∨ x = .queue t ∧ j = t.owner := by
      intro j x hx
      -- the one who is given the lock stood in front of it and nowhere else
      have hother : ∀ j x, c.session.Stands j x → (j = t.owner → x = .lock l t) := by
        rintro _ x hx rfl
        exact (hc.sound.place_of_stands hx).symm.trans (hc.sound.place_of_stands hlock)
      rcases Session.stands_enqueue hx with hx | ⟨rfl, rfl⟩
      · rcases Session.stands_setLock hx with hold | ⟨t', ht', rfl, rfl⟩
        · refine .inl ⟨hold, fun hj => ?_⟩
          obtain rfl := hother j x hold hj
          have hmem := hx.1
          rw [Session.lock_setLock, if_pos rfl] at hmem
          rw [hwaiting, List.map_cons, List.nodup_cons] at hnodup
          exact hnodup.1 (List.mem_map_of_mem hmem)
        · refine .inl ⟨⟨by simp [hwaiting, ht'], rfl⟩, fun hj => ?_⟩
          rw [hwaiting, List.map_cons, List.nodup_cons] at hnodup
          exact hnodup.1 (hj ▸ List.mem_map_of_mem ht')
      · exact .inr ⟨rfl, rfl⟩
    have hnoted : A.Holds s₀ h₀ b d (some i) (c.note i (.left l)) :=
      hH.note hc [⟨i, .left l, c.session.state⟩] (by simp) rfl hleft hrefl
        (fun j _ => A.rely_refl j b) (fun _ _ => rfl) fun _ _ hx => hx
    refine ⟨.entered t.owner l hleft, fun j x hx => ?_, fun j hj hj₀ r s h hh => ?_,
      fun j hj => ?_⟩
    · replace hx : (c.session.free l).Stands j x := hx
      rw [hfree] at hx
      show A.Waits b (story (_ :: (c.note i (.left l)).history) j) (d j) j x
      rcases hstands j x hx with ⟨hx, hj⟩ | ⟨rfl, rfl⟩
      · rw [story_cons_of_ne _ (Ne.symm hj)]
        exact hnoted.waits j x hx
      · rw [story_cons, if_pos rfl]
        exact hnoted.waits t.owner (.lock l t) hlock c.session.state
    · replace hh : story (_ :: (c.note i (.left l)).history) j = _ := hh
      rw [story_cons] at hh
      split at hh
      · simp at hh
      · exact hnoted.ended j hj hj₀ r s h hh
    · replace hj : story (_ :: (c.note i (.left l)).history) j = _ := hj
      rw [story_cons] at hj
      split at hj
      · simp at hj
      · exact hnoted.fresh j hj

/-- Somebody new comes into the queue. -/
theorem begin (hH : A.Holds s₀ h₀ c.session.state d none c) (hc : c.Resting sᵢ) {q : Request}
    {t : Task Reply} (hnew : c.history.story i = []) (hby : t.By i)
    (hgo : ∀ s, c.session.state.Onward s → A.rely i c.session.state s →
      A.goesOn i t (opening i q c.session.state s) [] s)
    (hhistory : c'.history = ⟨i, .asked q, c.session.state⟩ :: c.history)
    (hsession : c'.session = c.session.enqueue (.task t)) :
    A.Holds s₀ h₀ c.session.state d none c' := by
  obtain ⟨place, hsound, -⟩ := hc
  have hi : place i = .nowhere := hsound.known i hnew
  have hout : ∀ j x, c.session.Stands j x → j ≠ i := by
    rintro _ x hx rfl
    have hplace := hsound.place_of_stands hx
    rw [hi] at hplace
    rw [← hplace] at hx
    exact hx
  refine ⟨?_, fun j x hx => ?_, fun j hj hj₀ r s h hh => ?_, fun j hj => ?_⟩
  · rw [hhistory]
    exact .asked i q hH.dutiful hnew
  · rw [hsession] at hx
    rw [hhistory]
    rcases Session.stands_enqueue hx with hx | ⟨rfl, rfl⟩
    · rw [story_cons_of_ne _ (Ne.symm (hout j x hx))]
      exact hH.waits j x hx
    · rw [hby.owner, story_cons, if_pos rfl, hnew, hH.fresh i hnew]
      exact hgo
  · rw [hhistory, story_cons] at hh
    split at hh
    · simp at hh
    · exact hH.ended j hj hj₀ r s h hh
  · rw [hhistory, story_cons] at hj
    split at hj
    · simp at hj
    · exact hH.fresh j hj

/-- The jobs of a batch come into the queue. -/
theorem beginJobs (h₁ : sᵢ.Coherent) (batch : Nat) (jobs : List (Job × Nat))
    (hH : A.Holds s₀ h₀ c.session.state d none c) (hc : c.Resting sᵢ)
    (hbatch : batch < c.session.batches.length)
    (hnew : ∀ x ∈ jobs, c.history.story (.job batch x.2) = []) (hnodup : (jobs.map Prod.snd).Nodup)
    (hknown : ∀ x ∈ jobs, x.1.number < c.session.state.registrations.length)
    (hgo : ∀ x ∈ jobs, ∀ s, c.session.state.Onward s →
      A.rely (.job batch x.2) c.session.state s → A.goesOn (.job batch x.2)
        (Session.jobTask batch x.2 x.1)
        (opening (.job batch x.2) (.job x.1) c.session.state s) [] s) :
    A.Holds s₀ h₀ c.session.state d none (jobs.foldl (fun c (job, index) =>
      c.begin (.job batch index) (.job job) (Session.jobTask batch index job)) c) := by
  induction jobs generalizing c with
  | nil => exact hH
  | cons x jobs ih =>
    obtain ⟨job, index⟩ := x
    rw [List.map_cons, List.nodup_cons] at hnodup
    rw [List.foldl_cons]
    have hx := hknown (job, index) List.mem_cons_self
    have hfirst := hnew (job, index) List.mem_cons_self
    have hby := Chronicle.by_jobTask batch index job
    have hbegun : A.Holds s₀ h₀ c.session.state d none
        (c.begin (.job batch index) (.job job) (Session.jobTask batch index job)) :=
      hH.begin hc hfirst hby (hgo (job, index) List.mem_cons_self) rfl rfl
    have hresting : (c.begin (.job batch index) (.job job)
        (Session.jobTask batch index job)).Resting sᵢ := by
      refine hc.begin h₁ hfirst (q := .job job) (decide_eq_true hx) hby
        (fun s hs => Chronicle.goesOn_jobTask batch index job hs hx) rfl rfl fun j hj => ⟨hj, ?_⟩
      rintro rfl
      exact absurd hj (Nat.not_le_of_lt hbatch)
    refine ih hbegun hresting hbatch (fun y hy => ?_) hnodup.2
      (fun y hy => hknown y (List.mem_cons_of_mem _ hy))
      fun y hy => hgo y (List.mem_cons_of_mem _ hy)
    refine (story_cons_of_ne _ ?_).trans (hnew y (List.mem_cons_of_mem _ hy))
    intro hindex
    obtain rfl : index = y.2 := (TaskId.job.inj hindex).2
    exact hnodup.1 (List.mem_map.2 ⟨y, hy, rfl⟩)

/-- A running task starts jobs and waits for them. -/
theorem startBatch (hH : A.Holds s₀ h₀ b d (some i) c) (hc : c.Running sᵢ b i place)
    (h₁ : sᵢ.Coherent) (hrun : c.history.underway? = some (i, b)) {jobs : List Job}
    {k : List (Except Fault CheckResult) → Task Reply} (hby : ∀ rs, (k rs).By i)
    (hduty : (conduct i).gather (c.history.story i) c.session.state jobs)
    (hkeeps : ∀ rs s₁, c.session.state.Onward s₁ → (k rs).GoesOn i
      (⟨i, .resumed, s₁⟩ :: ⟨i, .gathered jobs, c.session.state⟩ :: c.history.story i) s₁)
    (hgo : A.goesOn i (.gather jobs k) (c.history.story i) (d i) c.session.state) :
    A.Holds s₀ h₀ c.session.state d none (c.startBatch i jobs k) := by
  have hstart := start_of_underway? hrun
  have hon : b.Onward c.session.state := hstart ▸ hduty.1.onward
  have hi := hc.sound.place_running
  obtain ⟨c₁, hc₁⟩ : ∃ c₁, c₁ = (c.note i (.gathered jobs)).onSession fun s =>
      { s with batches := s.batches ++ [⟨jobs.map fun _ => none, 0, k⟩] } := ⟨_, rfl⟩
  have hstory : c₁.history.story i = ⟨i, .gathered jobs, c.session.state⟩ :: c.history.story i := by
    rw [hc₁]
    exact Chronicle.story_note c i _
  have hstands : ∀ j x, c₁.session.Stands j x →
      c.session.Stands j x ∨ x = .batch c.session.batches.length k ∧ j = i := by
    intro j x hx
    rw [hc₁] at hx
    cases x with
    | batch n resume =>
      obtain ⟨⟨y, hy, hnoted, rfl⟩, hby'⟩ := hx
      rcases Nat.lt_or_ge n c.session.batches.length with hn | hn
      · exact .inl ⟨⟨y, (List.getElem?_append_left hn).symm.trans hy, hnoted, rfl⟩, hby'⟩
      · replace hy := (List.getElem?_append_right hn).symm.trans hy
        rw [List.getElem?_singleton] at hy
        split at hy
        · cases hy
          obtain rfl : n = c.session.batches.length := by omega
          exact .inr ⟨rfl, by rw [← (hby' []).owner, (hby []).owner]⟩
        · exact absurd hy (by simp)
    | _ => exact .inl hx
  have hgathered : A.Holds s₀ h₀ c.session.state d none c₁ := by
    refine hH.move ?_ hon (fun j hj => hstart ▸ A.pause hgo rfl j hj)
      (fun j hj => ?_) (fun _ _ => rfl)
      (fun j x hj hx => (hstands j x hx).resolve_right fun h => hj h.2) (fun x hx => ?_)
      (fun _ _ r s h hh => ?_) ?_
    · rw [hc₁]
      exact .gathered i jobs hH.dutiful hrun ⟨k, _, hgo⟩
    · rw [hc₁]
      exact story_cons_of_ne _ (Ne.symm hj)
    · rcases hstands i x hx with hx | ⟨rfl, -⟩
      · exact absurd hx (not_stands hc)
      · rw [hstory]
        exact fun rs hrs => A.gathered hgo rs (.inr ⟨_, hrs⟩)
    · rw [hstory] at hh
      simp at hh
    · rw [hstory]
      simp
  rw [Chronicle.startBatch]
  simp only
  rw [← hc₁]
  have hstate : c₁.session.state = c.session.state := by rw [hc₁]; rfl
  have hresting : c₁.Resting sᵢ := by
    rw [hc₁]
    exact hc.gather hstart hby hduty hkeeps
  rw [← hstate] at hgathered ⊢
  refine hgathered.beginJobs h₁ _ _ hresting ?_ (fun x hx => ?_) ?_ (fun x hx => ?_) fun x hx => ?_
  · simp [hc₁, Chronicle.onSession, Chronicle.note]
  · have hfresh := hc.sound.fresh (.job c.session.batches.length x.2) (Nat.le_refl _)
    rw [hc₁]
    refine (story_cons_of_ne _ ?_).trans hfresh
    rintro rfl
    exact hc.sound.story_ne_nil (by simp [hi]) hfresh
  · rw [List.zipIdx_map_snd]
    exact List.nodup_range'
  · rw [hstate]
    exact hduty.2.2 x.1 (List.fst_mem_of_mem_zipIdx hx)
  · rw [hstate]
    obtain ⟨-, -, hget⟩ := List.mem_zipIdx hx
    refine A.jobs hgo _ _ _ ?_ (hduty.2.2 x.1 (List.fst_mem_of_mem_zipIdx hx))
    simpa using List.mem_zipIdx_iff_getElem?.1 hx

theorem underway?_leave (c : Chronicle) (i : TaskId) (l : Nat) :
    (c.leave i l).history.underway? = c.history.underway? := by
  rw [Chronicle.leave]
  split <;> rfl

/-- A task that runs keeps everybody to an accord. -/
theorem run (h₁ : sᵢ.Coherent) (t : Task Reply) (hH : A.Holds s₀ h₀ b d (some i) c)
    (hc : c.Running sᵢ b i place) (hrun : c.history.underway? = some (i, b)) (hby : t.By i)
    (hkeeps : t.GoesOn i (c.history.story i) c.session.state)
    (hgo : A.goesOn i t (c.history.story i) (d i) c.session.state)
    (hdeals : ∀ x ∈ c.session.dealt t, A.deals i x) :
    A.Holds s₀ h₀ (c.run i t).session.state
      (Function.update d i (d i ++ c.session.dealt t)) none (c.run i t) := by
  induction t generalizing c b place d with
  | done f =>
    have hstart := start_of_underway? hrun
    have hon : b.Onward c.session.state := hstart ▸ hkeeps.steady.1
    rw [Session.dealt, List.append_nil, Function.update_eq_self]
    have hstate : (c.run i (.done f)).session.state = c.session.state := by
      cases f <;> rfl
    rw [hstate]
    exact hH.finish hc hrun hon hgo
  | read k ih => exact ih _ hH hc hrun (hby _) hkeeps (A.read hgo) hdeals
  | write s k ih =>
    exact ih (hH.onSession fun _ _ hx => hx)
      (hc.onSession rfl rfl rfl (Nat.le_refl _) rfl rfl rfl) hrun hby hkeeps.2 (A.write hgo) hdeals
  | spawn call k ih =>
    obtain ⟨hduty, hkeeps⟩ := hkeeps
    have hstart := start_of_underway? hrun
    have hon : b.Onward c.session.state := hstart ▸ hduty.1.onward
    have hcoherent := hduty.1.coherent
    have hrely : ∀ j, j ≠ i → A.rely j b c.session.state := fun j hj =>
      hstart ▸ A.pause hgo rfl j hj
    have hspawned : (c.spawned i call).Running sᵢ c.session.state i place :=
      (hc.note hon rfl (.spawned i call hc.sound.lawful hstart hduty)).onSession rfl rfl rfl
        (by simp) rfl rfl rfl
    have hstory : (c.spawned i call).history.story i =
        ⟨i, .spawned call, c.session.state⟩ :: c.history.story i := Chronicle.story_note c i _
    have hanswered : ∀ (c' : Chronicle) (e : Except Fault Ended),
        (c'.answered i e).history.story i = ⟨i, .resumed, c'.session.state⟩ ::
          ⟨i, .returned e, c'.session.state⟩ :: c'.history.story i := fun c' e => by
      rw [Chronicle.answered, Chronicle.story_note, Chronicle.story_note]
      rfl
    rw [Chronicle.run]
    rw [Session.dealt] at hdeals ⊢
    simp only at hdeals ⊢
    generalize hb : (Behaviour.take call c.session.script).1 = behaviour at hdeals ⊢
    have hbehaviour : A.deals i behaviour := hdeals behaviour List.mem_cons_self
    cases hfault : behaviour.fault? with
    | some fault =>
      simp only [hfault, List.mem_cons, forall_eq_or_imp] at hdeals
      have hnoted : A.Holds s₀ h₀ c.session.state (Function.update d i (d i ++ [behaviour]))
          (some i) ((c.spawned i call).answered i (.error fault)) := by
        refine hH.note hc [⟨i, .resumed, c.session.state⟩,
          ⟨i, .returned (.error fault), c.session.state⟩, ⟨i, .spawned call, c.session.state⟩]
          (by simp) rfl (.refused i call fault hH.dutiful hrun ⟨k, _, hgo⟩) hon hrely
          (fun j hj => Function.update_of_ne hj _ _) fun j x hx => hx
      have hrest := ih (.error fault) hnoted (hspawned.answered hcoherent rfl (.error fault))
        rfl (hby _) ?_ ?_ hdeals.2
      · rw [Function.update_idem, Function.update_self, List.append_assoc] at hrest
        exact hrest
      · rw [hanswered, hstory]
        exact hkeeps _ _ _ (.refl hcoherent) (.refl hcoherent)
      · rw [hanswered, hstory, Function.update_self]
        exact A.refused hgo hbehaviour hfault
    | none =>
      simp only [hfault, List.mem_cons, forall_eq_or_imp] at hdeals ⊢
      split
      · exact hH.hold hc hrun hon hby hgo hbehaviour hfault
      · next hheld =>
        rw [if_neg hheld] at hdeals
        have hfinished : ((c.spawned i call).onSession fun s => { s with
            state := s.state.finished behaviour }).Running sᵢ c.session.state i place :=
          hspawned.onSession rfl rfl rfl (Nat.le_refl _) rfl rfl rfl
        have hrefl := State.Onward.refl (hcoherent.of_core
          (State.core_withWorld c.session.state (behaviour.finish c.session.state.world)))
        have hnoted : A.Holds s₀ h₀ (c.session.state.finished behaviour)
            (Function.update d i (d i ++ [behaviour])) (some i)
            (((c.spawned i call).onSession fun s => { s with
              state := s.state.finished behaviour }).answered i
                (.ok (behaviour.ended call))) := by
          refine hH.note hc [⟨i, .resumed, c.session.state.finished behaviour⟩,
            ⟨i, .returned (.ok (behaviour.ended call)), c.session.state.finished behaviour⟩,
            ⟨i, .spawned call, c.session.state⟩] (by simp) rfl
            (.resumed i (.returned i _ _ (.spawned i call hH.dutiful hrun ⟨k, _, hgo⟩)))
            (hon.trans (.of_core rfl hcoherent))
            (fun j hj => A.rely_trans (hrely j hj) (A.rely_finished _ hbehaviour hj))
            (fun j hj => Function.update_of_ne hj _ _) fun j x hx => hx
        have hrest := ih (.ok (behaviour.ended call)) hnoted
          (hfinished.answered hcoherent rfl (.ok (behaviour.ended call)))
          rfl (hby _) ?_ ?_ hdeals.2
        · rw [Function.update_idem, Function.update_self, List.append_assoc] at hrest
          exact hrest
        · rw [hanswered]
          show (k _).GoesOn i (_ :: _ :: (c.spawned i call).history.story i) _
          rw [hstory]
          exact hkeeps _ _ _ (.of_core rfl hcoherent) hrefl
        · rw [hanswered, Function.update_self]
          show A.goesOn i _ (_ :: _ :: (c.spawned i call).history.story i) _ _
          rw [hstory]
          exact A.answered hgo hbehaviour hfault _ _ (.refl hcoherent) (A.rely_refl i _) hrefl
            (A.rely_refl i _)
  | sleep ms k =>
    have hstart := start_of_underway? hrun
    rw [Session.dealt, List.append_nil, Function.update_eq_self]
    exact hH.lieDown hc hrun (hstart ▸ hkeeps.1.onward) hby hgo
  | lock l k ih =>
    obtain ⟨hduty, hkeeps⟩ := hkeeps
    have hstart := start_of_underway? hrun
    have hon : b.Onward c.session.state := hstart ▸ hduty.1.onward
    have hrefl := State.Onward.refl hduty.1.coherent
    rw [Chronicle.run]
    rw [Session.dealt] at hdeals ⊢
    split
    · rw [List.append_nil, Function.update_eq_self]
      exact hH.await hc hrun hon hby hgo
    · next hheld =>
      rw [if_neg hheld] at hdeals
      have hstory : (c.enter i l).history.story i = ⟨i, .resumed, c.session.state⟩ ::
          ⟨i, .entered l, c.session.state⟩ :: ⟨i, .reached l, c.session.state⟩ ::
            c.history.story i := by
        rw [Chronicle.enter, Chronicle.story_note, Chronicle.story_note]
        exact congrArg _ (congrArg _ (Chronicle.story_note c i _))
      have hentered : A.Holds s₀ h₀ c.session.state d (some i) (c.enter i l) := by
        refine hH.note hc [⟨i, .resumed, c.session.state⟩, ⟨i, .entered l, c.session.state⟩,
          ⟨i, .reached l, c.session.state⟩] (by simp) rfl
          (.resumed i (.entered i l (.reached i l hH.dutiful hrun ⟨k, _, hgo⟩))) hon
          (fun j hj => hstart ▸ A.pause hgo rfl j hj) (fun _ _ => rfl) fun j x hx => ?_
        exact (Session.stands_setLock hx).resolve_right (by simp)
      refine ih hentered (hc.enter hstart hduty (by simpa using hheld)) rfl hby ?_ ?_ hdeals
      · rw [hstory]
        exact hkeeps _ _ hrefl hrefl
      · rw [hstory]
        exact A.entered hgo _ _ hrefl (A.rely_refl i _)
  | unlock l k ih =>
    obtain ⟨hduty, hkeeps⟩ := hkeeps
    have hstart := start_of_underway? hrun
    have hleft := hH.leave hc hrun (.refl (hc.coherent h₁)) hgo
    obtain ⟨place', hc', hstory⟩ := hc.leave h₁ hstart hduty
    have hsession := Chronicle.session_leave c i l
    have hstate : (c.leave i l).session.state = c.session.state := by
      rw [hsession, Session.free]
      split <;> rfl
    rw [Chronicle.run]
    rw [Session.dealt, ← hsession] at hdeals ⊢
    refine ih hleft hc' ?_ hby ?_ ?_ hdeals
    · rw [underway?_leave]
      exact hrun
    · rw [hstory, hstate]
      exact hkeeps
    · rw [hstory, hstate]
      exact A.left hgo
  | gather jobs k ih =>
    obtain ⟨hduty, hkeeps⟩ := hkeeps
    have hstart := start_of_underway? hrun
    have hon : b.Onward c.session.state := hstart ▸ hduty.1.onward
    have hrefl := State.Onward.refl hduty.1.coherent
    rw [Chronicle.run]
    rw [Session.dealt] at hdeals ⊢
    split
    · next hempty =>
      rw [if_pos hempty] at hdeals
      have hgathered : (c.note i (.gathered jobs)).Running sᵢ c.session.state i place :=
        hc.note hon rfl (.gathered i jobs hc.sound.lawful hstart hduty)
      have hstory : ((c.note i (.gathered jobs)).note i .resumed).history.story i =
          ⟨i, .resumed, c.session.state⟩ :: ⟨i, .gathered jobs, c.session.state⟩ ::
            c.history.story i := by
        rw [Chronicle.story_note, Chronicle.story_note]
        rfl
      have hnoted : A.Holds s₀ h₀ c.session.state d (some i)
          ((c.note i (.gathered jobs)).note i .resumed) :=
        hH.note hc [⟨i, .resumed, c.session.state⟩, ⟨i, .gathered jobs, c.session.state⟩] (by simp)
          rfl (.resumed i (.gathered i jobs hH.dutiful hrun ⟨k, _, hgo⟩)) hon
          (fun j hj => hstart ▸ A.pause hgo rfl j hj) (fun _ _ => rfl) fun j x hx => hx
      refine ih [] hnoted (hgathered.note hrefl rfl (.resumed i hgathered.sound.lawful)) rfl
        (hby []) ?_ ?_ hdeals
      · rw [hstory]
        exact hkeeps [] _ hrefl
      · rw [hstory]
        exact A.gathered hgo [] (.inl rfl) _ hrefl (A.rely_refl i _)
    · rw [List.append_nil, Function.update_eq_self]
      have hstate : (c.startBatch i jobs k).session.state = c.session.state := by
        rw [Chronicle.session_startBatch]
        exact Session.state_startBatch c.session jobs k
      rw [hstate]
      exact hH.startBatch hc h₁ hrun hby hduty hkeeps hgo

/-! ## Moves -/

/-- The world is changed by others. -/
theorem world (hH : A.Holds s₀ h₀ c.session.state d none c) (hc : c.Resting sᵢ) (h₁ : sᵢ.Coherent)
    (w : World) (hrely : ∀ i s, A.rely i s { s with world := w }) :
    A.Holds s₀ h₀ { c.session.state with world := w } d none (c.step (.world w)) := by
  obtain ⟨place, hsound, -⟩ := hc
  have hon : c.session.state.Onward { c.session.state with world := w } :=
    .of_core (State.core_withWorld _ w) (hsound.lawful.coherent h₁)
  refine ⟨.outside w hH.dutiful, fun i x hx => (hH.waits i x hx).later hon (hrely i _),
    fun i hi hi₀ r s h hh => ?_, hH.fresh⟩
  obtain ⟨hf, hs⟩ := hH.ended i hi hi₀ r s h hh
  exact ⟨hf, A.rely_trans hs (hrely i _)⟩

/-- A child process ends. -/
theorem release (hH : A.Holds s₀ h₀ c.session.state d none c) (hc : c.Resting sᵢ)
    (h₁ : sᵢ.Coherent) (call : Nat) :
    A.Holds s₀ h₀ (c.step (.release call)).session.state d none (c.step (.release call)) := by
  rw [Chronicle.step]
  cases hheld : c.session.held.get? call with
  | none => exact hH
  | some x =>
    obtain ⟨place, hsound, -⟩ := hc
    obtain ⟨-, i, hi⟩ := hsound.layout.child call x hheld
    have hwell := hsound.well i
    rw [hi] at hwell
    have howner : ∀ e, (x.resume e).owner = i := fun e => (hwell.1 e).owner
    have hchild : c.session.Stands i (.child call x) := ⟨hheld, hwell.1⟩
    obtain ⟨hdeals, hgo⟩ := hH.waits i _ hchild
    have hon : c.session.state.Onward (c.session.state.finished x.behaviour) :=
      .of_core rfl (hsound.lawful.coherent h₁)
    have hne : c.history.story i ≠ [] := hsound.story_ne_nil (by simp [hi])
    simp only [howner]
    obtain ⟨c₁, hc₁⟩ : ∃ c₁ : Chronicle, c₁ = (c.onSession fun s => { s with
        held := s.held.erase call
        state := s.state.finished x.behaviour }).note i
          (.returned (.ok (x.behaviour.ended x.call))) := ⟨_, rfl⟩
    have hstory : ∀ j, c₁.history.story j = if i = j then
        ⟨i, .returned (.ok (x.behaviour.ended x.call)), c.session.state.finished x.behaviour⟩ ::
          c.history.story j else c.history.story j := by
      intro j
      rw [hc₁]
      exact story_cons _ _ j
    -- whose process it was stood behind it and nowhere else
    have hstands : ∀ j y, (c₁.session.enqueue
        (.task (x.resume (.ok (x.behaviour.ended x.call))))).Stands j y →
        c.session.Stands j y ∧ j ≠ i ∨
          y = .queue (x.resume (.ok (x.behaviour.ended x.call))) ∧ j = i := by
      intro j y hy
      rcases Session.stands_enqueue hy with hy | ⟨rfl, rfl⟩
      · rw [hc₁] at hy
        have hold : c.session.Stands j y ∧ y ≠ .child call x := by
          cases y with
          | child n y =>
            obtain ⟨hget, hby⟩ := hy
            replace hget := (Assoc.get?_erase _ _ _).symm.trans hget
            split at hget
            · exact absurd hget (by simp)
            · next hn => exact ⟨⟨hget, hby⟩, fun h => hn (Station.child.inj h).1⟩
          | _ => exact ⟨hy, by simp⟩
        refine .inl ⟨hold.1, ?_⟩
        rintro rfl
        exact hold.2 ((hsound.place_of_stands hold.1).symm.trans hi)
      · exact .inr ⟨rfl, howner _⟩
    suffices hnext : A.Holds s₀ h₀ (c.session.state.finished x.behaviour) d none
        (c₁.onSession fun s => s.enqueue (.task (x.resume (.ok (x.behaviour.ended x.call))))) by
      rw [hc₁] at hnext
      exact hnext
    have hrely : ∀ j, j ≠ i →
        A.rely j c.session.state (c.session.state.finished x.behaviour) := fun j hj =>
      A.rely_finished _ hdeals hj
    refine ⟨?_, fun j y hy => ?_, fun j hj hj₀ r s h hh => ?_, fun j hj => ?_⟩
    · rw [hc₁]
      exact .returned i _ _ hH.dutiful
    · show A.Waits _ (c₁.history.story j) _ j y
      rcases hstands j y hy with ⟨hold, hj⟩ | ⟨rfl, rfl⟩
      · rw [hstory, if_neg (Ne.symm hj)]
        exact (hH.waits j y hold).later hon (hrely j hj)
      · rw [hstory, if_pos rfl]
        exact fun s hs hrely => hgo _ s (.refl (hsound.lawful.coherent h₁)) (A.rely_refl _ _) hs
          hrely
    · replace hh : c₁.history.story j = _ := hh
      rw [hstory] at hh
      split at hh
      · simp at hh
      · next hij =>
        obtain ⟨hf, hs⟩ := hH.ended j hj hj₀ r s h hh
        exact ⟨hf, A.rely_trans hs (hrely j (Ne.symm hij))⟩
    · replace hj : c₁.history.story j = _ := hj
      rw [hstory] at hj
      split at hj
      · simp at hj
      · exact hH.fresh j hj

/-- The end of a job is noted. -/
theorem noteJob (hH : A.Holds s₀ h₀ c.session.state d none c) (hc : c.Resting sᵢ) (batch : Nat)
    (hgives : ∀ x, c.session.batches[batch]? = some x → x.noted + 1 = x.results.length →
      A.gives batch (x.results.filterMap id)) :
    A.Holds s₀ h₀ c.session.state d none (c.onSession (·.noteJob batch)) := by
  obtain ⟨place, hsound, -⟩ := hc
  cases hbatch : c.session.batches[batch]? with
  | none =>
    have hsame : c.session.noteJob batch = c.session := by rw [Session.noteJob, hbatch]
    rw [Chronicle.onSession, hsame]
    exact hH
  | some x =>
    have hset : ∀ j y, ({ c.session with
        batches := c.session.batches.set batch { x with noted := x.noted + 1 } } :
          Session Reply).Stands j y → c.session.Stands j y ∧
            (y = .batch batch x.resume → x.noted + 1 ≠ x.results.length) := by
      intro j y hy
      cases y with
      | batch n resume =>
        obtain ⟨⟨z, hz, hnoted, hresume⟩, hby⟩ := hy
        simp only [List.getElem?_set] at hz
        split at hz
        · next hn =>
          subst hn
          split at hz
          · cases hz
            refine ⟨⟨⟨x, hbatch, by simp only at hnoted; omega, hresume⟩, hby⟩, fun _ => ?_⟩
            simp only at hnoted
            omega
          · exact absurd hz (by simp)
        · next hn => exact ⟨⟨⟨z, hz, hnoted, hresume⟩, hby⟩, fun h => absurd
            (Station.batch.inj h).1.symm hn⟩
      | _ => exact ⟨hy, by simp⟩
    by_cases hlast : x.noted + 1 = x.results.length
    · have hnote : c.session.noteJob batch = ({ c.session with
          batches := c.session.batches.set batch { x with noted := x.noted + 1 } } :
            Session Reply).enqueue (.task (x.resume (x.results.filterMap id))) := by
        simp only [Session.noteJob, hbatch, if_pos hlast]
      obtain ⟨i, hi⟩ := hsound.layout.batch batch x hbatch (by omega)
      have hwell := hsound.well i
      rw [hi] at hwell
      have hstood : c.session.Stands i (.batch batch x.resume) :=
        ⟨⟨x, hbatch, by omega, rfl⟩, hwell.1⟩
      rw [Chronicle.onSession, hnote]
      refine ⟨hH.dutiful, fun j y hy => ?_, hH.ended, hH.fresh⟩
      rcases Session.stands_enqueue hy with hy | ⟨rfl, rfl⟩
      · exact hH.waits j y (hset j y hy).1
      · rw [(hwell.1 _).owner]
        exact hH.waits i _ hstood _ (hgives x hbatch hlast)
    · have hnote : c.session.noteJob batch = { c.session with
          batches := c.session.batches.set batch { x with noted := x.noted + 1 } } := by
        simp only [Session.noteJob, hbatch, if_neg hlast]
      rw [Chronicle.onSession, hnote]
      exact ⟨hH.dutiful, fun j y hy => hH.waits j y (hset j y hy).1, hH.ended, hH.fresh⟩

/-- A task that stands somewhere begins to run, and runs. -/
theorem goOn (hH : A.Holds s₀ h₀ c.session.state d none c) (h₁ : sᵢ.Coherent) {t : Task Reply}
    {f : Session Reply → Session Reply}
    (hrunning : ((c.onSession f).note t.owner .resumed).Running sᵢ c.session.state t.owner place)
    (hby : t.By t.owner)
    (hkeeps : t.GoesOn t.owner (⟨t.owner, .resumed, c.session.state⟩ :: c.history.story t.owner)
      c.session.state)
    (hstate : (f c.session).state = c.session.state)
    (hstands : ∀ j x, (f c.session).Stands j x → c.session.Stands j x)
    (hgo : ∀ s, c.session.state.Onward s → A.rely t.owner c.session.state s →
      A.goesOn t.owner t (⟨t.owner, .resumed, s⟩ :: c.history.story t.owner) (d t.owner) s)
    (hdeals : ∀ x ∈ (f c.session).dealt t, A.deals t.owner x) :
    A.Holds s₀ h₀ (((c.onSession f).note t.owner .resumed).run t.owner t).session.state
      (Function.update d t.owner (d t.owner ++ (f c.session).dealt t)) none
      (((c.onSession f).note t.owner .resumed).run t.owner t) := by
  have hhistory : ((c.onSession f).note t.owner .resumed).history =
      ⟨t.owner, .resumed, c.session.state⟩ :: c.history := by
    rw [← hstate]
    rfl
  have hstory : ((c.onSession f).note t.owner .resumed).history.story t.owner =
      ⟨t.owner, .resumed, c.session.state⟩ :: c.history.story t.owner := by
    rw [hhistory]
    exact story_cons_self _ _
  have hrefl := State.Onward.refl (hrunning.coherent h₁)
  have hnoted : A.Holds s₀ h₀ c.session.state d (some t.owner)
      ((c.onSession f).note t.owner .resumed) := by
    refine ⟨?_, fun j x hx => ?_, fun j hj hj₀ r s h hh => ?_, fun j hj => ?_⟩
    · rw [hhistory]
      exact .resumed t.owner hH.dutiful
    · have hji : j ≠ t.owner := by
        rintro rfl
        exact not_stands hrunning hx
      rw [hhistory, story_cons_of_ne _ (Ne.symm hji)]
      exact hH.waits j x (hstands j x hx)
    · have hji : j ≠ t.owner := fun h => hj (h ▸ rfl)
      rw [hhistory, story_cons_of_ne _ (Ne.symm hji)] at hh
      exact hH.ended j (by simp) hj₀ r s h hh
    · rw [hhistory, story_cons] at hj
      split at hj
      · simp at hj
      · exact hH.fresh j hj
  have hrun : ((c.onSession f).note t.owner .resumed).history.underway? =
      some (t.owner, c.session.state) := by
    rw [hhistory]
    rfl
  refine hnoted.run h₁ t hrunning hrun hby ?_ ?_ hdeals
  all_goals
    have hsame : ((c.onSession f).note t.owner .resumed).session.state = c.session.state := hstate
    rw [hstory, hsame]
  · exact hkeeps
  · exact hgo _ hrefl (A.rely_refl _ _)

/-- The first task of the queue runs. -/
theorem takeTask (hH : A.Holds s₀ h₀ c.session.state d none c) (hc : c.Resting sᵢ)
    (h₁ : sᵢ.Coherent) {t : Task Reply} {rest : List (Ready Reply)}
    (hready : c.session.ready = .task t :: rest)
    (hdeals : ∀ x ∈ ({ c.session with ready := rest } : Session Reply).dealt t,
      A.deals t.owner x) :
    A.Holds s₀ h₀ (c.step .take).session.state (Function.update d t.owner
      (d t.owner ++ ({ c.session with ready := rest } : Session Reply).dealt t)) none
      (c.step .take) := by
  obtain ⟨place, hrunning, hby, hkeeps⟩ := hc.dequeue h₁ hready
  have hqueue : c.session.Stands t.owner (.queue t) :=
    ⟨by simp [Session.tasks, hready, Ready.task?], rfl⟩
  rw [Chronicle.step, hready]
  refine hH.goOn h₁ hrunning hby hkeeps rfl (fun j x hx => ?_) (hH.waits _ _ hqueue) hdeals
  cases x with
  | queue t' =>
    refine ⟨?_, hx.2⟩
    have ht' : t' ∈ rest.filterMap Ready.task? := hx.1
    rw [Session.tasks, hready, List.filterMap_cons]
    exact List.mem_cons_of_mem _ ht'
  | _ => exact hx

/-- A task that sleeps runs. -/
theorem wakeTask (hH : A.Holds s₀ h₀ c.session.state d none c) (hc : c.Resting sᵢ)
    (h₁ : sᵢ.Coherent) {t : Task Reply} {pause : Nat} (ht : c.session.asleep.get? pause = some t)
    (hdeals : ∀ x ∈ ({ c.session with
      asleep := c.session.asleep.erase pause } : Session Reply).dealt t, A.deals t.owner x) :
    A.Holds s₀ h₀ (c.wake pause).session.state (Function.update d t.owner (d t.owner ++
      ({ c.session with asleep := c.session.asleep.erase pause } : Session Reply).dealt t)) none
      (c.wake pause) := by
  obtain ⟨place, hrunning, hby, hkeeps⟩ := hc.rouse h₁ ht
  rw [Chronicle.wake, ht]
  refine hH.goOn h₁ hrunning hby hkeeps rfl (fun j x hx => ?_)
    (hH.waits _ (.asleep pause t) ⟨ht, rfl⟩) hdeals
  cases x with
  | asleep n t' =>
    refine ⟨?_, hx.2⟩
    have hget := (Assoc.get?_erase _ _ _).symm.trans hx.1
    split at hget
    · exact absurd hget (by simp)
    · exact hget
  | _ => exact hx

end Accord.Holds

/-- How the child processes behave that a task starts in a move. -/
def Chronicle.dealt (c : Chronicle) : Move → TaskId → List Behaviour
  | .take, i => match c.session.ready with
    | .task t :: rest =>
      if t.owner = i then ({ c.session with ready := rest } : Session Reply).dealt t else []
    | _ => []
  | .wake pause, i => match c.session.asleep.get? pause with
    | some t =>
      if t.owner = i then
        ({ c.session with asleep := c.session.asleep.erase pause } : Session Reply).dealt t
      else []
    | none => []
  | _, _ => []

namespace Accord.Holds

variable {A : Accord} {s₀ sᵢ : State} {h₀ : History} {d : TaskId → List Behaviour} {c : Chronicle}

theorem take (hH : A.Holds s₀ h₀ c.session.state d none c) (hc : c.Resting sᵢ) (h₁ : sᵢ.Coherent)
    (hdeals : ∀ i, ∀ x ∈ c.dealt .take i, A.deals i x)
    (hgives : ∀ n x, c.session.ready.head? = some (.jobEnded n) → c.session.batches[n]? = some x →
      x.noted + 1 = x.results.length → A.gives n (x.results.filterMap id)) :
    A.Holds s₀ h₀ (c.step .take).session.state (fun i => d i ++ c.dealt .take i) none
      (c.step .take) := by
  cases hready : c.session.ready with
  | nil =>
    have hnone : (fun i => d i ++ c.dealt .take i) = d := by
      funext i
      simp [Chronicle.dealt, hready]
    have hsame : c.step .take = c := by rw [Chronicle.step, hready]
    rw [hnone, hsame]
    exact hH
  | cons r rest =>
    cases r with
    | task t =>
      have hupdate : (fun i => d i ++ c.dealt .take i) = Function.update d t.owner
          (d t.owner ++ ({ c.session with ready := rest } : Session Reply).dealt t) := by
        funext i
        by_cases hi : t.owner = i
        · subst hi
          simp [Chronicle.dealt, hready]
        · rw [Function.update_of_ne (Ne.symm hi)]
          simp [Chronicle.dealt, hready, hi]
      rw [hupdate]
      refine hH.takeTask hc h₁ hready fun x hx => hdeals t.owner x ?_
      simpa [Chronicle.dealt, hready] using hx
    | jobEnded batch =>
      have hnone : (fun i => d i ++ c.dealt .take i) = d := by
        funext i
        simp [Chronicle.dealt, hready]
      have hnote : c.step .take =
          (c.onSession fun s => { s with ready := rest }).onSession (·.noteJob batch) := by
        rw [Chronicle.step, hready]
        rfl
      have hstate : (c.step .take).session.state = c.session.state := by
        rw [hnote]
        exact Session.state_noteJob _ batch
      have hdequeued : A.Holds s₀ h₀ c.session.state d none
          (c.onSession fun s => { s with ready := rest }) := by
        refine hH.onSession fun j x hx => ?_
        refine Session.Stands.congr hx ?_ rfl rfl rfl rfl
        rw [Session.tasks, Session.tasks, hready]
        rfl
      rw [hnone, hstate, hnote]
      exact hdequeued.noteJob (hc.dequeueNote hready) batch fun x =>
        hgives batch x (by rw [hready]; rfl)

theorem wake (hH : A.Holds s₀ h₀ c.session.state d none c) (hc : c.Resting sᵢ) (h₁ : sᵢ.Coherent)
    (pause : Nat) (hdeals : ∀ i, ∀ x ∈ c.dealt (.wake pause) i, A.deals i x) :
    A.Holds s₀ h₀ (c.wake pause).session.state (fun i => d i ++ c.dealt (.wake pause) i) none
      (c.wake pause) := by
  cases ht : c.session.asleep.get? pause with
  | none =>
    have hnone : (fun i => d i ++ c.dealt (.wake pause) i) = d := by
      funext i
      simp [Chronicle.dealt, ht]
    have hsame : c.wake pause = c := by rw [Chronicle.wake, ht]
    rw [hnone, hsame]
    exact hH
  | some t =>
    have hupdate : (fun i => d i ++ c.dealt (.wake pause) i) =
        Function.update d t.owner (d t.owner ++ ({ c.session with
          asleep := c.session.asleep.erase pause } : Session Reply).dealt t) := by
      funext i
      by_cases hi : t.owner = i
      · subst hi
        simp [Chronicle.dealt, ht]
      · rw [Function.update_of_ne (Ne.symm hi)]
        simp [Chronicle.dealt, ht, hi]
    rw [hupdate]
    refine hH.wakeTask hc h₁ ht fun x hx => hdeals t.owner x ?_
    simpa [Chronicle.dealt, ht] using hx

/-- Every move keeps everybody to an accord, if new tasks may begin, if the world is changed in no
way that anybody does not count on, if child processes behave as they may, and if jobs result in
what they may. -/
theorem step (hH : A.Holds s₀ h₀ c.session.state d none c) (hc : c.Resting sᵢ) (h₁ : sᵢ.Coherent)
    (m : Chronicle.Move)
    (hrequest : ∀ q, m = .request q → q.isKnown c.session.state = true → ∀ s,
      c.session.state.Onward s → A.rely (.host c.asked) c.session.state s →
        A.goesOn (.host c.asked) (q.task c.asked)
          (opening (.host c.asked) q c.session.state s) [] s)
    (hworld : ∀ w, m = .world w → ∀ i s, A.rely i s { s with world := w })
    (hdeals : ∀ i, ∀ x ∈ c.dealt m i, A.deals i x)
    (hgives : ∀ n x, c.session.ready.head? = some (.jobEnded n) → c.session.batches[n]? = some x →
      x.noted + 1 = x.results.length → A.gives n (x.results.filterMap id)) :
    A.Holds s₀ h₀ (c.step m).session.state (fun i => d i ++ c.dealt m i) none (c.step m) := by
  cases m with
  | take => exact hH.take hc h₁ hdeals hgives
  | wake pause => exact hH.wake hc h₁ pause hdeals
  | request q =>
    simp only [Chronicle.dealt, List.append_nil]
    rw [Chronicle.step]
    split
    · next hknown =>
      have hnew : c.history.story (.host c.asked) = [] := by
        obtain ⟨place, hsound, -⟩ := hc
        exact hsound.fresh (.host c.asked) (Nat.le_refl _)
      exact hH.begin hc hnew (Chronicle.by_task q c.asked) (hrequest q rfl hknown) rfl rfl
    · exact hH
  | respond bs =>
    simp only [Chronicle.dealt, List.append_nil]
    exact hH.onSession (f := fun s => { s with script := s.script ++ bs }) fun _ _ hx => hx
  | world w =>
    simp only [Chronicle.dealt, List.append_nil]
    exact hH.world hc h₁ w (hworld w rfl)
  | release call =>
    simp only [Chronicle.dealt, List.append_nil]
    exact hH.release hc h₁ call

/-- Where nobody stands anywhere, everybody holds to any accord. -/
theorem idle (hnobody : ∀ i x, ¬ c.session.Stands i x) :
    A.Holds c.session.state c.history c.session.state (fun _ => []) none c where
  dutiful := .nil
  waits i x hx := absurd hx (hnobody i x)
  ended i _ hopen r s h hh := by
    rw [reply?, hh] at hopen
    exact absurd hopen (by simp [Happening.reply?])
  fresh _ _ := rfl

end Accord.Holds

end Overseer
