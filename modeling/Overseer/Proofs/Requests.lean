import Overseer.Proofs.Checks

set_option autoImplicit false

/-! # Requests conduct themselves well

Whatever a host can ask for, and every job of a batch, conducts itself well from its first
moment on (`Request.keeps_operation`, `Job.keeps_operation`). Requests that are no checks hold
no lock and change no diagnostics: they are idle all along. A request for a check finds the
registration that it is about and is then on its way to the lock. -/

namespace Overseer

open Op History

variable {i : TaskId} {h : History} {s s' s₀ : State} {q : Request} {n : Nat}

namespace History

/-! ## Idle tasks -/

/-- A task has had nothing to do with locks, nor with diagnostics since it last went on. -/
structure Idle (h : History) (s : State) (q : Request) : Prop where
  calm : h.Calm s
  request : h.request? = some q
  began : h.began?.isSome = true
  holding : h.holding = none
  reached : h.hasReached = false
  entered : h.hasEntered = false
  unstarted : q.isWhole = true → h.dealings = []

theorem Idle.gentle (hidle : h.Idle s q) (hs : s.Gentle s') : h.Idle s' q :=
  { hidle with calm := hidle.calm.gentle hs }

theorem Idle.core (hidle : h.Idle s q) (hs : s'.core = s.core) : h.Idle s' q :=
  hidle.gentle (.of_core hs hidle.calm.coherent)

theorem Idle.answered (hidle : h.Idle s q) (hnumber : q.number? = none) (s' : State)
    (reply : Except Fault Reply) : h.Answered s' reply := by
  intro q' hq' n hn
  obtain rfl : q = q' := Option.some.inj (hidle.request.symm.trans hq')
  exact absurd (hnumber.symm.trans hn) (by simp)

theorem Idle.reported (hidle : h.Idle s q) {reply : Except Fault Reply} : h.Reported s' reply := by
  intro q' hq' hwhole d hd
  obtain rfl : q = q' := Option.some.inj (hidle.request.symm.trans hq')
  rw [hidle.unstarted hwhole] at hd
  exact absurd hd (by simp)

/-- An idle task that has changed nothing but locks may end with a reply that shows nothing. -/
theorem Idle.settled_of_steady (hidle : h.Idle s q) (hsteady : h.Steady s') (hs : s.Later s')
    (hstore : s'.store = s.store) (hregistry : s'.registry = s.registry)
    {reply : Except Fault Reply} (hanswered : h.Answered s' reply)
    (hr : ∀ k, h.verdict? reply k = none) : h.Settled s' reply where
  steady := hsteady
  holding := hidle.holding
  entered hreached := by
    rw [hidle.reached] at hreached
    exact absurd hreached (by simp)
  named q' hq' hcheck n _ r hreply hok := by
    have hverdict := verdict?_self hq' hcheck hok
    rw [← hreply, hr] at hverdict
    exact absurd hverdict (by simp)
  answered := hanswered
  refiled k hk := by
    rw [Refiled, hr k, State.filed, hstore]
    exact hidle.calm.filed_of_tended (hk.earlier hidle.calm.onward hs)
  counted k _ := by
    rw [Counted, hr k]
    trivial
  strays k hk := by
    rw [State.Stray, hstore, hregistry] at hk
    exact (hidle.calm.strays k hk).imp_right fun ho => ho.later hs
  placed id c hc e he := by
    rw [hstore] at hc
    exact .inl (hidle.calm.exists_entry hc he)
  reported := hidle.reported

/-- An idle task may end with a reply that shows nothing. -/
theorem Idle.settled (hidle : h.Idle s q) {reply : Except Fault Reply}
    (hanswered : h.Answered s reply) (hr : ∀ k, h.verdict? reply k = none) : h.Settled s reply :=
  hidle.settled_of_steady hidle.calm.steady (.refl s) rfl rfl hanswered hr

theorem verdict?_of_not_check (hq : h.request? = some q) (hcheck : q.isCheck = false)
    (reply : Except Fault Reply) (k : String) : h.verdict? reply k = none := by
  cases reply with
  | error e => rfl
  | ok reply =>
    cases reply with
    | checked r => simp [verdict?, hq, hcheck]
    | _ => rfl

theorem number?_of_isRemoval (hq : q.isRemoval = true) : q.number? = none := by
  cases q with
  | remove root => rfl
  | _ => exact absurd hq (by simp [Request.isRemoval])

theorem isCheck_of_isRemoval (hq : q.isRemoval = true) : q.isCheck = false := by
  cases q with
  | remove root => rfl
  | _ => exact absurd hq (by simp [Request.isRemoval])

/-- A task that is no check may end whenever it is idle, if it does not owe the result of one. -/
theorem Idle.settled_of_not_check (hidle : h.Idle s q) (hcheck : q.isCheck = false)
    {reply : Except Fault Reply} (hanswered : h.Answered s reply) : h.Settled s reply :=
  hidle.settled hanswered fun k => verdict?_of_not_check hidle.request hcheck reply k

/-- An idle task that is a check of a registration is on its way to the lock. -/
theorem Idle.outside (hidle : h.Idle s q) (hcheck : q.isCheck = true) (hn : h.subject? = some n)
    (hknown : n < s.registrations.length) : Check.Outside h s q n :=
  ⟨hidle.calm, hidle.request, hcheck, hn, hidle.began, hidle.holding, hidle.reached, hknown⟩

/-- Calls of the checker outside of a check. -/
theorem Idle.keeps_calls {α : Type} {p : Op α}
    {Q : Except Fault α → List Dealing → State → Prop} (hidle : h.Idle s q)
    (hcheck : q.isCheck = false) (hsubject : h.subject? = some n)
    (hp : p.Keeps (Daemon.calls (Daemon.sourcedRule n)) Q [] s) :
    p.Keeps (conduct i) (fun r h' s' => h'.Idle s' q ∧ h'.subject? = h.subject? ∧ s.Onward s' ∧
      ∃ ds, h.Extends ds h' ∧ Q r ds s') h s := by
  refine (keeps_of_calls hp hidle.calm fun ds h' s' c hext _ hc =>
    ⟨fun hentered => ?_, hext.sourced hidle.began hsubject hc⟩).mono fun r h' s' hr => ?_
  · have hentered' : h'.hasEntered = true := by simpa [hasEntered] using hentered
    rw [hext.entered, hidle.entered] at hentered'
    exact absurd hentered' (by simp)
  · obtain ⟨ds, ⟨hext, -, hon, hcalm, -⟩, hQ⟩ := hr
    exact ⟨⟨hcalm, hext.request.trans hidle.request,
      by rw [hext.began hidle.began]; exact hidle.began, hext.holding.trans hidle.holding,
      hext.reached.trans hidle.reached, hext.entered.trans hidle.entered, fun hwhole =>
        absurd ((Check.isCheck_of_isWhole hwhole).symm.trans hcheck) (by simp)⟩,
      hext.subject hidle.began, hon, ds, hext, hQ⟩

/-- Jobs are started and waited for. -/
theorem Idle.gathered (hidle : h.Idle s q) {jobs : List Job} (hs' : s'.Coherent) :
    Idle (⟨i, .resumed, s'⟩ :: ⟨i, .gathered jobs, s⟩ :: h) s' q where
  calm := calm_resumed hs'
  request := hidle.request
  began := rfl
  holding := hidle.holding
  reached := by simpa [hasReached] using hidle.reached
  entered := by simpa [hasEntered] using hidle.entered
  unstarted := hidle.unstarted

/-- The story of a task that has just begun. -/
def opening (i : TaskId) (q : Request) (s₀ s : State) : History :=
  [⟨i, .resumed, s⟩, ⟨i, .asked q, s₀⟩]

theorem idle_opening (hs : s.Coherent) : (opening i q s₀ s).Idle s q :=
  ⟨calm_resumed hs, rfl, rfl, rfl, rfl, rfl, fun _ => rfl⟩

theorem subject?_opening : (opening i q s₀ s).subject? = q.subject s := rfl

end History

/-! ## The registry -/

namespace Supervisor

theorem keeps_find {Q : Except Fault (Option Nat) → History → State → Prop} {root : String}
    (hok : Q (.ok (Request.registeredAt s root)) h s) (herror : ∀ e, Q (.error e) h s) :
    (find root).Keeps (conduct i) Q h s := by
  rw [find, keyOf]
  simp only [keeps_bind, keeps_look]
  unfold Request.registeredAt at hok
  generalize s.world.resolve (Path.ofString root) = p at hok ⊢
  cases p with
  | error e =>
    rw [next_error, next_error]
    exact herror e
  | ok p =>
    simp only [next_ok, keeps_pure, keeps_bind, keeps_state]
    exact hok

theorem keeps_require {Q : Except Fault Nat → History → State → Prop} {root : String}
    (hok : ∀ n, Request.registeredAt s root = some n → Q (.ok n) h s)
    (herror : ∀ e, Q (.error e) h s) : (require root).Keeps (conduct i) Q h s := by
  rw [require, keeps_bind]
  refine keeps_find ?_ fun e => (next_error _ _ _).2 (herror e)
  rw [next_ok]
  cases hn : Request.registeredAt s root with
  | some n => exact (keeps_pure n).2 (hok n hn)
  | none => exact (keeps_throw _).2 (herror _)

theorem known_of_registeredAt (hs : s.Coherent) {root : String}
    (hn : Request.registeredAt s root = some n) : n < s.registrations.length := by
  unfold Request.registeredAt at hn
  generalize s.world.resolve (Path.ofString root) = p at hn
  cases p with
  | error e => exact absurd hn (by simp)
  | ok p => exact (hs.registered _ _ hn).1

theorem keeps_applyDebugLogging {Q : Except Fault Unit → History → State → Prop}
    (hQ : ∀ s', s'.core = s.core → Q (.ok ()) h s') :
    applyDebugLogging.Keeps (conduct i) Q h s := by
  rw [applyDebugLogging, keeps_modify, conduct_write, true_and]
  split
  · exact hQ _ rfl
  · exact hQ _ rfl

theorem keeps_replaceSettings {Q : Except Fault Unit → History → State → Prop}
    {settings : Settings} (hidle : h.Idle s q) (hQ : ∀ s', h.Idle s' q → Q (.ok ()) h s') :
    (replaceSettings n settings).Keeps (conduct i) Q h s := by
  rw [replaceSettings, keeps_bind, keeps_modify, conduct_write, true_and, next_ok]
  have hidle' := hidle.gentle (State.gentle_settings hidle.calm.coherent n settings)
  exact keeps_applyDebugLogging fun s' hs' => hQ s' (hidle'.core hs')

theorem keeps_add {root : String} {settings : Option Settings} (hidle : h.Idle s q) :
    (add root settings).Keeps (conduct i) (fun _ h' s' => h'.Idle s' q) h s := by
  rw [add]
  simp only [keeps_bind, keeps_look]
  cases hws : Workspace.ofRoot s.world (Path.ofString root) (settings.getD {}) with
  | error e => exact (next_error _ _ _).2 hidle
  | ok ws =>
    simp only [next_ok, keeps_bind, keeps_state]
    cases hn : s.registry.get? ws.key with
    | some n =>
      cases settings with
      | none => exact (keeps_pure n).2 hidle
      | some settings =>
        simp only [keeps_bind]
        refine keeps_replaceSettings hidle fun s' hidle' => ?_
        rw [next_ok, keeps_pure]
        exact hidle'
    | none =>
      simp only [keeps_bind, keeps_modify, conduct_write, true_and, next_ok]
      have hidle' := hidle.gentle (State.gentle_withRegistration hidle.calm.coherent ws hn)
      refine keeps_applyDebugLogging fun s' hs' => ?_
      simp only [next_ok, keeps_bind, keeps_log, conduct_write, true_and, keeps_pure]
      exact (hidle'.core hs').core (State.core_record s' _)

theorem keeps_update {root : String} {settings : Settings} (hidle : h.Idle s q) :
    (update root settings).Keeps (conduct i) (fun _ h' s' => h'.Idle s' q) h s := by
  rw [update, keeps_bind]
  refine keeps_require (fun n _ => ?_) fun e => (next_error _ _ _).2 hidle
  rw [next_ok, keeps_bind]
  refine keeps_replaceSettings hidle fun s' hidle' => ?_
  rw [next_ok, keeps_pure]
  exact hidle'

theorem keeps_stopDaemon : (Check.stopDaemon n).Keeps (Daemon.calls (Daemon.sourcedRule n))
    (fun r ds s' => Daemon.Escapes (Daemon.Unstopped n (Daemon.lastAnswer? ds) s') r) [] s := by
  rw [Check.stopDaemon, keeps_bind]
  refine (Daemon.keeps_stop fun _ _ _ _ hc => hc.2).mono fun r ds' s' hr => ?_
  cases r with
  | ok stopped =>
    simp only [next_ok, keeps_bind, Op.keeps_workspace, keeps_pure]
    exact Daemon.escapes_ok _ _
  | error e => exact (next_error _ _ _).2 (hr.2.error)

/-- Forgetting the lock of a workspace, which a removal of it may do at its end. -/
theorem keeps_forget {Q : Except Fault Unit → History → State → Prop} (hidle : h.Idle s q)
    (hremoval : q.isRemoval = true) (hn : h.subject? = some n)
    (hknown : n < s.registrations.length) (hremoved : s.isRemoved n = true)
    (hQ : ∀ s', (∀ s'' reply, s''.core = s'.core → h.Settled s'' reply) → Q (.ok ()) h s') :
    (Check.forget n).Keeps (conduct i) Q h s := by
  rw [Check.forget, Daemon.forget]
  simp only [keeps_bind, Op.keeps_workspace, next_ok, keeps_modify, conduct_write, true_and]
  have hon := State.onward_erase_lock hidle.calm.coherent ⟨n, hknown, hremoved, rfl⟩
  have hsteady := hidle.calm.steady.trans hon fun k l hl => by
    by_cases hk : k = s.key n
    · exact .inr ⟨q, hidle.request, n, hn, hremoval, hknown, hremoved, hk.symm⟩
    · refine .inl ?_
      rw [← hl]
      exact (Assoc.get?_erase _ _ _).trans (if_neg hk)
  refine hQ _ fun s'' reply hs'' => ?_
  have hcore : s''.core = ({ s with lockOf := s.lockOf.erase (s.key n) } : State).core := hs''
  have hstore : s''.store = s.store := (State.store_of_core hcore).trans rfl
  have hregistry : s''.registry = s.registry := (State.registry_of_core hcore).trans rfl
  have hanswered := hidle.answered (number?_of_isRemoval hremoval) s'' reply
  exact hidle.settled_of_steady (hsteady.core hcore) (hon.1.trans (.of_core hcore)) hstore
    hregistry hanswered fun k =>
      verdict?_of_not_check hidle.request (isCheck_of_isRemoval hremoval) reply k

theorem keeps_remove {root : String} (hs : s.Coherent) (hidle : h.Idle s (.remove root))
    (hsubject : h.subject? = Request.registeredAt s root) :
    (remove root).Keeps (conduct i) (fun r h' s' => h'.Settled s' (r.map .flag)) h s := by
  have hidle' : ∀ (h' : History) s' reply, h'.Idle s' (.remove root) → h'.Settled s' reply :=
    fun h' s' reply hidle => hidle.settled_of_not_check rfl (hidle.answered rfl s' reply)
  rw [remove, keyOf]
  simp only [keeps_bind, keeps_look]
  unfold Request.registeredAt at hsubject
  generalize s.world.resolve (Path.ofString root) = p at hsubject ⊢
  cases p with
  | error e =>
    rw [next_error, next_error]
    exact hidle' h s _ hidle
  | ok p =>
    simp only [next_ok, keeps_pure, keeps_bind, keeps_state]
    replace hsubject : h.subject? = s.registry.get? p.text := hsubject
    cases hn : s.registry.get? p.text with
    | none => exact (keeps_pure false).2 (hidle' h s _ hidle)
    | some n =>
      rw [hn] at hsubject
      obtain ⟨hknown, hkey, -⟩ := hs.registered _ _ hn
      have hgentle := State.gentle_withoutRegistration hs hn
      have hknown' := Nat.lt_of_lt_of_le hknown hgentle.onward.1.length
      have hremoved : (s.withoutRegistration p.text n).isRemoved n = true := by
        simp [State.isRemoved_withoutRegistration s p.text n hknown]
      simp only [keeps_bind, keeps_modify, disposeStore, conduct_write, true_and, next_ok]
      refine ((hidle.gentle hgentle).keeps_calls rfl hsubject keeps_stopDaemon).mono
        fun r h' s' hr => ?_
      obtain ⟨hidle₁, hsubject₁, hon, -⟩ := hr
      cases r with
      | error e => exact (next_error _ _ _).2 (hidle' h' s' _ hidle₁)
      | ok stopped =>
        rw [next_ok, keeps_bind]
        have hon' := hgentle.onward.trans hon
        refine keeps_forget hidle₁ rfl (hsubject₁.trans hsubject)
          (Nat.lt_of_lt_of_le hknown hon'.1.length) (hon.1.removed n hknown' hremoved)
          fun s₁ hsettled => ?_
        simp only [next_ok, keeps_bind, Op.keeps_workspace, keeps_log, conduct_write, true_and,
          keeps_pure]
        exact hsettled _ _ (State.core_record s₁ _)

/-! ## Checks -/

theorem keeps_check {root : String} (hidle : h.Idle s (.check root))
    (hsubject : h.subject? = Request.registeredAt s root) :
    (check root).Keeps (conduct i) (fun r h' s' => h'.Settled s' (r.map .checked)) h s := by
  rw [check, keeps_bind]
  refine keeps_require (fun n hn => ?_) fun e =>
    (next_error _ _ _).2 (hidle.settled (hidle.answered rfl _ _) fun _ => rfl)
  rw [next_ok]
  have hknown := known_of_registeredAt hidle.calm.coherent hn
  exact Check.keeps_workspace (hidle.outside rfl (hsubject.trans hn) hknown) rfl

theorem keeps_notebook {root document : String} {cells : List Cell} {language : String}
    (hidle : h.Idle s (.notebook root document cells language))
    (hsubject : h.subject? = Request.registeredAt s root) :
    (notebook root document cells language).Keeps (conduct i)
      (fun r h' s' => h'.Settled s' (r.map .checked)) h s := by
  rw [notebook, keeps_bind]
  refine keeps_require (fun n hn => ?_) fun e =>
    (next_error _ _ _).2 (hidle.settled (hidle.answered rfl _ _) fun _ => rfl)
  rw [next_ok]
  have hknown := known_of_registeredAt hidle.calm.coherent hn
  exact Check.keeps_fragments (hidle.outside rfl (hsubject.trans hn) hknown) rfl rfl rfl

/-- The reply to a signal. -/
def Signal.reply : Option CheckResult → Reply
  | some r => .checked r
  | none => .nothing

theorem keeps_signal {root : String} {reason : Signal} {paths : List String}
    (hidle : h.Idle s (.signal root reason paths))
    (hsubject : h.subject? = Request.registeredAt s root) :
    (signal root reason paths).Keeps (conduct i)
      (fun r h' s' => h'.Settled s' (r.map Signal.reply)) h s := by
  -- the result of a check is the reply
  have hreply : ∀ (p : Op CheckResult) s',
      p.Keeps (conduct i) (fun r h' s' => h'.Settled s' (r.map .checked)) h s' →
      (do return some (← p) : Op (Option CheckResult)).Keeps (conduct i)
        (fun r h' s' => h'.Settled s' (r.map Signal.reply)) h s' := by
    intro p s' hp
    rw [keeps_bind]
    refine hp.mono fun r h' s' hr => ?_
    cases r with
    | ok r => exact (next_ok _ _ _).2 ((keeps_pure _).2 hr)
    | error e => exact (next_error _ _ _).2 hr
  have hsettled : ∀ s' (r : Except Fault (Option CheckResult)), s'.core = s.core →
      (r.map Signal.reply = .ok .nothing ∨ ∃ e, r = .error e) →
      h.Settled s' (r.map Signal.reply) := by
    rintro s' r hs' (hr | ⟨e, rfl⟩)
    · rw [hr]
      exact (hidle.core hs').settled (hidle.answered rfl _ _) fun _ => rfl
    · exact (hidle.core hs').settled (hidle.answered rfl _ _) fun _ => rfl
  rw [signal, keeps_bind]
  refine keeps_find ?_ fun e => (next_error _ _ _).2 (hsettled s _ rfl (.inr ⟨e, rfl⟩))
  rw [next_ok]
  cases hn : Request.registeredAt s root with
  | none =>
    simp only [keeps_bind, keeps_log, conduct_write, true_and, next_ok, keeps_pure]
    exact hsettled _ _ (State.core_record s _) (.inl rfl)
  | some n =>
    have hknown := known_of_registeredAt hidle.calm.coherent hn
    have hout := hidle.outside rfl (hsubject.trans hn) hknown
    have hchecked := hreply _ s (Check.keeps_workspace (i := i) hout rfl)
    simp only [keeps_bind, Op.keeps_workspace, next_ok]
    split
    · next hrestart =>
      simp only [keeps_bind, keeps_log, conduct_write, true_and, next_ok]
      rw [← keeps_bind]
      exact hreply _ _ (Check.keeps_restart (hout.core (State.core_record s _)) rfl hrestart)
    · split
      · simp only [keeps_bind, keeps_look]
        cases (s.workspace n).configFile s.world with
        | error e => exact (next_error _ _ _).2 (hsettled s _ rfl (.inr ⟨e, rfl⟩))
        | ok config =>
          simp only [next_ok, keeps_bind, keeps_look]
          cases Watch.filterRelevant s.world (s.workspace n).root config paths with
          | error e => exact (next_error _ _ _).2 (hsettled s _ rfl (.inr ⟨e, rfl⟩))
          | ok relevant =>
            simp only [next_ok]
            split
            · simp only [keeps_bind, keeps_log, conduct_write, true_and, next_ok, keeps_pure]
              exact hsettled _ _ (State.core_record s _) (.inl rfl)
            · exact hchecked
      · exact hchecked

/-! ## All workspaces -/

theorem keeps_jobResult {Q : Except Fault CheckResult → History → State → Prop}
    {r : Except Fault CheckResult} (hQ : ∀ r s', s'.core = s.core → Q (.ok r) h s') :
    (jobResult n r).Keeps (conduct i) Q h s := by
  cases r with
  | ok r =>
    rw [jobResult, keeps_pure]
    exact hQ r s rfl
  | error e =>
    rw [jobResult]
    simp only [keeps_bind, Op.keeps_workspace, keeps_log, conduct_write, true_and, next_ok,
      keeps_pure]
    exact hQ _ _ (State.core_record s _)

theorem keeps_jobResults {Q : Except Fault (List CheckResult) → History → State → Prop}
    {rs : List (Nat × Except Fault CheckResult)}
    (hQ : ∀ rs s', s'.core = s.core → Q (.ok rs) h s') :
    (rs.mapM fun x => jobResult x.1 x.2 : Op _).Keeps (conduct i) Q h s := by
  induction rs generalizing s Q with
  | nil => exact (keeps_pure []).2 (hQ [] s rfl)
  | cons x rs ih =>
    rw [List.mapM_cons]
    simp only [keeps_bind]
    refine keeps_jobResult fun r s₁ h₁ => ?_
    rw [next_ok, keeps_bind]
    refine ih fun rs' s₂ h₂ => ?_
    rw [next_ok, keeps_pure]
    exact hQ _ s₂ (h₂.trans h₁)

theorem known_of_registered (hs : s.Coherent) (hn : n ∈ s.registered) :
    n < s.registrations.length := by
  obtain ⟨e, he, rfl⟩ := List.mem_map.1 hn
  exact (hs.registered e.1 e.2 ((Assoc.get?_eq_some_iff _ _ _).2 he)).1

theorem keeps_fanOut (hidle : h.Idle s q) {job : Nat → Job} (hjob : ∀ n, (job n).number = n) :
    (fanOut job).Keeps (conduct i) (fun _ h' s' => h'.Idle s' q) h s := by
  rw [fanOut]
  simp only [keeps_bind, keeps_state, next_ok, keeps_gather]
  refine ⟨⟨hidle.calm, hidle.holding, fun j hj => ?_⟩, fun rs s₁ h₁ => ?_⟩
  · obtain ⟨n, hn, rfl⟩ := List.mem_map.1 hj
    rw [hjob]
    exact known_of_registered hidle.calm.coherent hn
  · have hidle₁ : Idle (⟨i, .resumed, s₁⟩ :: ⟨i, .gathered (s.registered.map job), s⟩ :: h) s₁ q :=
      hidle.gathered h₁.2
    refine keeps_jobResults fun results s₂ h₂ => ?_
    simp only [next_ok]
    split
    · simp only [keeps_bind, keeps_log, conduct_write, true_and, next_ok, keeps_pure]
      exact (hidle₁.core h₂).core (State.core_record s₂ _)
    · exact (keeps_pure _).2 (hidle₁.core h₂)

theorem keeps_start (hidle : h.Idle s q) :
    start.Keeps (conduct i) (fun _ h' s' => h'.Idle s' q) h s := by
  rw [start]
  simp only [keeps_bind, keeps_modify, conduct_write, true_and, next_ok, keeps_log]
  exact hidle.core rfl

theorem keeps_shutdown (hidle : h.Idle s q) :
    shutdown.Keeps (conduct i) (fun _ h' s' => h'.Idle s' q) h s := by
  rw [shutdown, stopAll, keeps_bind]
  refine (keeps_fanOut hidle fun _ => rfl).mono fun r h' s' hidle' => ?_
  cases r with
  | ok report =>
    simp only [next_ok, keeps_bind, keeps_modify, conduct_write, true_and, keeps_log, keeps_pure]
    exact hidle'.core rfl
  | error e => exact (next_error _ _ _).2 hidle'

end Supervisor

theorem Check.keeps_killDaemon : (killDaemon n).Keeps (Daemon.calls (Daemon.sourcedRule n))
    (fun r ds s' => Daemon.Escapes (fun e => Daemon.Unkilled n (Daemon.lastAnswer? ds) s' e ∨
      Daemon.Refused Handle.removeStatusFile n e s') r) [] s := by
  rw [killDaemon, keeps_bind]
  refine (Daemon.keeps_kill (Daemon.open_sourcedRule n [])).mono fun r ds' s' hr => ?_
  cases r with
  | error e => exact (next_error _ _ _).2 (hr.2.error.imp fun _ he => .inl he)
  | ok killed =>
    rw [next_ok]
    simp only
    split
    · simp only [keeps_bind]
      refine Daemon.keeps_handle (fun id s₁ hfound => ?_) fun e he =>
        (next_error _ _ _).2 (Daemon.escapes_handle he (.inl (.inl (.handle he))))
      simp only [next_ok, Daemon.withHandle, keeps_bind, keeps_state, keeps_act,
        Daemon.calls_write, State.core_withWorld, true_and]
      cases hremoved : ((s₁.handle id).removeStatusFile.exec s₁.world).1 with
      | error e =>
        refine (next_error _ _ _).2 ?_
        rintro _ ⟨⟩
        exact ⟨Daemon.isFailure_of_removeStatusFile hremoved, .inr (hfound.refused hremoved)⟩
      | ok _ =>
        simp only [next_ok, keeps_bind, Op.keeps_workspace, keeps_pure]
        exact Daemon.escapes_ok _ _
    · simp only [keeps_bind, Op.keeps_workspace, next_ok, keeps_pure]
      exact Daemon.escapes_ok _ _

/-- An operation on one registration that stops or kills a daemon, and whose faults are excused. -/
theorem History.Idle.keeps_daemon {p : Op CheckResult}
    {reason : List Dealing → State → Fault → Prop} (hidle : h.Idle s q) (hcheck : q.isCheck = false)
    (hsubject : h.subject? = some n)
    (hp : p.Keeps (Daemon.calls (Daemon.sourcedRule n))
      (fun r ds s' => Daemon.Escapes (reason ds s') r) [] s)
    (hexcuse : ∀ ds h' s' e, h.Extends ds h' → reason ds s' e → q.Excuse n h'.answer? s' e) :
    p.Keeps (conduct i) (fun r h' s' => h'.Settled s' (r.map .checked)) h s := by
  refine (hidle.keeps_calls hcheck hsubject hp).mono fun r h' s' hr => ?_
  obtain ⟨hidle', hsubject', -, ds, hext, hescapes⟩ := hr
  refine hidle'.settled_of_not_check hcheck fun q' hq' n' hn' => ?_
  obtain rfl : q = q' := Option.some.inj (hidle'.request.symm.trans hq')
  obtain rfl : n = n' := eq_of_number? hq' (hsubject'.trans hsubject) hn'
  exact Request.answers_of_escapes (hescapes.imp fun e he => hexcuse ds h' s' e hext he)

/-! ## What requests are about -/

theorem Request.isKnown_of_le {s s' : State} {q : Request} (hq : q.isKnown s = true)
    (hs : s.registrations.length ≤ s'.registrations.length) : q.isKnown s' = true := by
  cases q with
  | job | fragments | kill =>
    simp only [isKnown, decide_eq_true_eq] at hq ⊢
    omega
  | _ => rfl

theorem Request.known_of_subject {s : State} {q : Request} {n : Nat} (hs : s.Coherent)
    (hq : q.isKnown s = true) (hn : q.subject s = some n) : n < s.registrations.length := by
  cases q with
  | remove | check | notebook | signal =>
    simp only [subject] at hn
    exact Supervisor.known_of_registeredAt hs hn
  | job | fragments | kill =>
    cases hn
    simpa [isKnown] using hq
  | _ => exact absurd hn (by simp [subject])

/-! ## All requests -/

/-- A job on a registration. -/
theorem Job.keeps_operation (j : Job) (hidle : h.Idle s (.job j))
    (hsubject : h.subject? = some j.number) (hknown : j.number < s.registrations.length) :
    j.operation.Keeps (conduct i) (fun r h' s' => h'.Settled s' (r.map .checked)) h s := by
  cases j with
  | check n => exact Check.keeps_workspace (hidle.outside rfl hsubject hknown) rfl
  | restart n => exact Check.keeps_restart (hidle.outside rfl hsubject hknown) rfl rfl
  | stop n =>
    exact hidle.keeps_daemon rfl hsubject Supervisor.keeps_stopDaemon fun ds h' s' e hext he =>
      .stop (.inr rfl) (hext.unstopped he)

/-- The reply to a request is made from the result of an operation. -/
theorem keeps_reply {α : Type} {p : Op α} {f : α → Reply}
    (hp : p.Keeps (conduct i) (fun r h' s' => h'.Settled s' (r.map f)) h s) :
    (do return f (← p) : Op Reply).Keeps (conduct i) (fun r h' s' => h'.Settled s' r) h s := by
  rw [keeps_bind]
  refine hp.mono fun r h' s' hr => ?_
  cases r with
  | ok a => exact (next_ok _ _ _).2 ((keeps_pure _).2 hr)
  | error e => exact (next_error _ _ _).2 hr

/-- The reply to a request that is neither a check nor about a registration by its number. -/
theorem keeps_idle_reply {α : Type} {p : Op α} {f : α → Reply} (hcheck : q.isCheck = false)
    (hnumber : q.number? = none) (hp : p.Keeps (conduct i) (fun _ h' s' => h'.Idle s' q) h s) :
    (do return f (← p) : Op Reply).Keeps (conduct i) (fun r h' s' => h'.Settled s' r) h s :=
  keeps_reply (hp.mono fun _ _ s' hidle =>
    hidle.settled_of_not_check hcheck (hidle.answered hnumber s' _))

/-- Every request conducts itself well. -/
theorem Request.keeps_operation (q : Request) (hq : q.isKnown s₀ = true) (hs : s₀.Onward s) :
    q.operation.Keeps (conduct i) (fun r h' s' => h'.Settled s' r) (opening i q s₀ s) s := by
  have hidle : (opening i q s₀ s).Idle s q := idle_opening hs.2
  have hsubject : (opening i q s₀ s).subject? = q.subject s := subject?_opening
  cases q with
  | start => exact keeps_idle_reply (f := fun _ => .nothing) rfl rfl (Supervisor.keeps_start hidle)
  | shutdown => exact keeps_idle_reply rfl rfl (Supervisor.keeps_shutdown hidle)
  | add root settings => exact keeps_idle_reply rfl rfl (Supervisor.keeps_add hidle)
  | remove root => exact keeps_reply (Supervisor.keeps_remove hs.2 hidle hsubject)
  | update root settings => exact keeps_idle_reply rfl rfl (Supervisor.keeps_update hidle)
  | check root => exact keeps_reply (Supervisor.keeps_check hidle hsubject)
  | notebook root document cells language =>
    exact keeps_reply (Supervisor.keeps_notebook hidle hsubject)
  | signal root reason paths =>
    rw [operation, keeps_bind]
    refine (Supervisor.keeps_signal hidle hsubject).mono fun r h' s' hr => ?_
    cases r with
    | error e => exact (next_error _ _ _).2 hr
    | ok r =>
      rw [next_ok]
      cases r with
      | none => exact (keeps_pure _).2 hr
      | some r => exact (keeps_pure _).2 hr
  | recheckAll => exact keeps_idle_reply rfl rfl (Supervisor.keeps_fanOut hidle fun _ => rfl)
  | restartAll => exact keeps_idle_reply rfl rfl (Supervisor.keeps_fanOut hidle fun _ => rfl)
  | stopAll => exact keeps_idle_reply rfl rfl (Supervisor.keeps_fanOut hidle fun _ => rfl)
  | job j =>
    have hknown := Nat.lt_of_lt_of_le (of_decide_eq_true hq) hs.1.length
    exact keeps_reply (j.keeps_operation hidle hsubject hknown)
  | fragments n document cells language =>
    have hknown := Nat.lt_of_lt_of_le (of_decide_eq_true hq) hs.1.length
    exact keeps_reply (Check.keeps_fragments (hidle.outside rfl hsubject hknown) rfl rfl rfl)
  | kill n =>
    refine keeps_reply (hidle.keeps_daemon rfl hsubject Check.keeps_killDaemon
      fun ds h' s' e hext he => .kill rfl (he.imp_left ?_))
    exact fun he => he.imp_right fun he => he.imp_right hext.raised

end Overseer
