import Overseer.Proofs.Checks
import Overseer.Proofs.Requests
import Overseer.Proofs.Tidiness

set_option autoImplicit false

/-! # The remits of requests

A request about a registration deals with the workspace of that registration; only one that
registers a root, gives it new settings or removes it changes registrations (`Request.remit`).
Every request and every job keeps to its remit and keeps marks tidy (`Request.heeds_operation`,
`Job.heeds_operation`). -/

namespace Overseer

open Op History Daemon

/-- Whether a request may change registrations. -/
def Request.registers : Request → Bool
  | add _ _ | remove _ | update _ _ => true
  | _ => false

/-- What a request deals with when it begins in some state. -/
def Request.remit (q : Request) (s : State) : Remit := ⟨(q.subject s).map s.key, q.registers⟩

variable {i : TaskId} {h : History} {s s' : State} {k : String} {n id : Nat} {t : Remit}

/-- Marks stay as tidy as they are when a lock is given back. -/
theorem tidy_left (hh : Tidy k h s) (l : Nat) : Tidy k (⟨i, .left l, s⟩ :: h) s :=
  ⟨hh.length, fun id hfixed hreserved hdown =>
    .left i l s (hh.marks id hfixed.of_cons hreserved hdown)⟩

/-- Marks stay as tidy as they are when handles are left alone. -/
theorem tidy_of_handles (hh : Tidy k h s) (hhandles : s'.handles = s.handles)
    (hhandleOf : s'.handleOf = s.handleOf) : Tidy k h s' :=
  hh.later (.of_eq hhandles hhandleOf) fun id => by
    rw [State.started, State.handle, hhandles]
    rfl

namespace Check

/-! ## Parts of checks -/

theorem heeds_lockFor {Q : Except Fault Nat → History → State → Prop} (hs : s.Bound k n)
    (htidy : Tidy k h s) (hQ : ∀ l s', Past k n h s h s' → Tidy k h s' → Q (.ok l) h s') :
    (lockFor n).Heeds (tidiness t) i Q h s := by
  rw [lockFor]
  simp only [heeds_bind, heeds_state, hence_ok]
  cases hl : s.lockOf.get? (s.workspace n).key with
  | some l =>
    rw [heeds_pure]
    exact hQ l s (.refl hs) htidy
  | none =>
    simp only [heeds_bind, heeds_modify, hence_ok, heeds_pure]
    have hon := (State.gentle_insert_lock hs.coherent s.lockCount (s.lockCount + 1) hl).onward
    have hlater : s.HandlesLater { s with
        lockOf := s.lockOf.insert (s.workspace n).key s.lockCount, lockCount := s.lockCount + 1 } :=
      .of_eq rfl rfl
    exact ⟨(State.Touch.aside t s _ _ _ _ _).single, hQ _ _
      ⟨List.suffix_refl h, hs.onward hon hlater, hon, hlater⟩ (tidy_of_handles htidy rfl rfl)⟩

/-- The collection that a check works with is that of its workspace. -/
theorem heeds_collection {Q : Except Fault Nat → History → State → Prop} (hs : s.Bound k n)
    (ht : t.key? = some k) (htidy : Tidy k h s)
    (hQ : ∀ id s', Past k n h s h s' → Tidy k h s' →
      (∃ c, s'.store.at? id = some c ∧ c.workspace = k) → Q (.ok id) h s') :
    (collection n).Heeds (tidiness t) i Q h s := by
  rw [collection]
  simp only [heeds_bind, heeds_state, hence_ok, heeds_modify, heeds_pure]
  have hkey : (s.workspace n).key = k := hs.key
  rw [hkey]
  have hon := State.onward_withCollection hs.coherent k
  have hlater : s.HandlesLater (s.withCollection k) := .of_eq rfl rfl
  refine ⟨(State.Touch.collection ht s).single, hQ _ (s.withCollection k)
    ⟨List.suffix_refl h, hs.onward hon hlater, hon, hlater⟩ (tidy_of_handles htidy rfl rfl) ?_⟩
  obtain ⟨c, hc, hw, -⟩ := (State.coherent_withCollection hs.coherent k).current _ _
    (Store.current_collection s.store k)
  exact ⟨c, hc, hw⟩

theorem heeds_change {Q : Except Fault Unit → History → State → Prop}
    {f : Collection → Collection × Delta} (ht : t.key? = some k) (htidy : Tidy k h s)
    (hid : ∃ c, s.store.at? id = some c ∧ c.workspace = k)
    (hQ : ∀ s', Tidy k h s' → Q (.ok ()) h s') :
    (change id f).Heeds (tidiness t) i Q h s := by
  obtain ⟨c, hc, hk⟩ := hid
  rw [change, heeds_modify]
  exact ⟨(State.Touch.change ht hc hk f).single, hQ _ (tidy_of_handles htidy rfl rfl)⟩

theorem heeds_notify {Q : Except Fault Unit → History → State → Prop} {notice : Notice}
    (htidy : Tidy k h s) (hQ : ∀ s', Tidy k h s' → Q (.ok ()) h s') :
    (notify notice).Heeds (tidiness t) i Q h s := by
  rw [notify]
  simp only [heeds_bind, heeds_state, hence_ok]
  split
  · rw [heeds_modify]
    exact ⟨(State.Touch.aside t s _ _ _ _ _).single, hQ _ (tidy_of_handles htidy rfl rfl)⟩
  · rw [heeds_log, tidiness_write_record, true_and]
    exact hQ _ (htidy.even (State.even_record s _))

theorem heeds_failed {Q : Except Fault CheckResult → History → State → Prop} {f : Failure}
    {cause : Option FaultClass} (htidy : Tidy k h s) (hQ : ∀ r s', Tidy k h s' → Q (.ok r) h s') :
    (failed n f cause).Heeds (tidiness t) i Q h s := by
  rw [failed]
  simp only [heeds_bind, heeds_workspace, hence_ok, heeds_log, tidiness_write_record, true_and]
  have htidy' := fun r => htidy.even (State.even_record s r)
  split
  · rw [heeds_bind]
    refine heeds_notify (htidy' _) fun s' hs' => ?_
    rw [hence_ok, heeds_pure]
    exact hQ _ s' hs'
  · rw [heeds_pure]
    exact hQ _ _ (htidy' _)

/-- A call that keeps marks tidy keeps them tidy whatever becomes of it. -/
theorem heeds_contained {Q : Except Fault (Except CheckResult RunResult) → History → State → Prop}
    {subject : String} {call : Op RunResult}
    (hcall : call.Heeds (tidiness t) i (fun _ h' s' => Past k n h s h' s' ∧ Tidy k h' s') h s)
    (hok : ∀ run h' s', Past k n h s h' s' → Tidy k h' s' → Q (.ok (.ok run)) h' s')
    (herror : ∀ r h' s', Tidy k h' s' → Q (.ok (.error r)) h' s') :
    (contained n subject call).Heeds (tidiness t) i Q h s := by
  rw [contained, heeds_bind, Op.heeds_attempt]
  refine hcall.mono fun r h' s' hr => ?_
  obtain ⟨hpast, htidy⟩ := hr
  rw [hence_ok]
  split
  · rw [heeds_pure]
    exact hok _ h' s' hpast htidy
  · rw [heeds_bind]
    refine heeds_failed htidy fun r s'' htidy' => ?_
    rw [hence_ok, heeds_pure]
    exact herror r h' s'' htidy'
  · simp only [heeds_bind, heeds_log, tidiness_write_record, true_and, hence_ok, heeds_workspace,
      heeds_pure]
    exact herror _ h' _ (htidy.even (State.even_record s' _))

/-- What keeps marks tidy does so behind the lock. -/
theorem heeds_serialized {check : Op CheckResult} (hs : s.Bound k n) (ht : t.key? = some k)
    (htidy : Tidy k h s)
    (hcheck : ∀ h' s', s'.Bound k n → Tidy k h' s' →
      check.Heeds (tidiness t) i (fun _ h'' s'' => Tidy k h'' s'') h' s') :
    (serialized n check).Heeds (tidiness t) i (fun _ h' s' => Tidy k h' s') h s := by
  rw [serialized, heeds_bind]
  refine heeds_lockFor hs htidy fun l s₁ hpast htidy₁ => ?_
  rw [hence_ok, heeds_withLock]
  refine ⟨tidiness_duty ht htidy₁ (by simp), fun s₂ s₃ hon hrely => ?_⟩
  have hs₃ : s₃.Bound k n := hpast.bound.onward hon hrely
  simp only [heeds_bind, heeds_isRemoved, hence_ok]
  split
  · simp only [heeds_bind, heeds_workspace, hence_ok, heeds_log, tidiness_write_record, true_and,
      heeds_pure]
    exact tidy_left ((tidy_resumed i _ s₃).even (State.even_record s₃ _)) l
  · exact (hcheck _ s₃ hs₃ (tidy_resumed i _ s₃)).mono fun _ h' s' htidy' => tidy_left htidy' l

/-! ## Checks -/

theorem heeds_install {run : RunResult} (ht : t.key? = some k) (htidy : Tidy k h s)
    (hid : ∃ c, s.store.at? id = some c ∧ c.workspace = k) :
    (install n id run).Heeds (tidiness t) i (fun _ h' s' => Tidy k h' s') h s := by
  rw [install]
  simp only [heeds_bind, findings, heeds_look]
  cases (Output.parse run.stdout).mapError Fault.digits with
  | error e => exact (hence_error _ _ _).2 htidy
  | ok found =>
    simp only [hence_ok, heeds_bind, heeds_look]
    cases s.world.diagnosticsByFile found with
    | error e => exact (hence_error _ _ _).2 htidy
    | ok files =>
      simp only [isStale, hence_ok, heeds_bind, heeds_workspace, heeds_state, heeds_pure]
      split
      · simp only [heeds_bind, heeds_log, tidiness_write_record, true_and, hence_ok, heeds_pure]
        exact htidy.even (State.even_record s _)
      · rw [heeds_bind]
        refine heeds_change ht htidy hid fun s' htidy' => ?_
        simp only [hence_ok, heeds_bind, heeds_log, tidiness_write_record, true_and, heeds_pure]
        exact htidy'.even (State.even_record s' _)

theorem heeds_checkHolding (hs : s.Bound k n) (ht : t.key? = some k) (htidy : Tidy k h s) :
    (checkHolding n).Heeds (tidiness t) i (fun _ h' s' => Tidy k h' s') h s := by
  rw [checkHolding, heeds_bind]
  refine heeds_collection hs ht htidy fun id s₁ hpast htidy₁ hid => ?_
  simp only [hence_ok, heeds_bind, heeds_workspace]
  have heven := fun r => State.even_record s₁ r
  split
  · simp only [heeds_bind, heeds_log, tidiness_write_record, true_and, hence_ok]
    refine heeds_change ht (htidy₁.even (heven _)) hid fun s' htidy' => ?_
    rw [hence_ok, heeds_pure]
    exact htidy'
  · simp only [heeds_bind, heeds_log, tidiness_write_record, true_and, hence_ok]
    generalize hs₂ : State.record s₁ _ = s₂
    have heven₂ : s₁.Even s₂ := hs₂ ▸ heven _
    have hpast₂ := hpast.even heven₂
    have htidy₂ := htidy₁.even heven₂
    refine heeds_contained (k := k) (n := n) ?_ (fun run h' s' hpast' htidy' => ?_)
      fun r h' s' htidy' => ?_
    · rw [heeds_bind, heeds_look]
      cases (s₁.workspace n).runArgs _ with
      | error e => exact (hence_error _ _ _).2 ⟨.refl hpast₂.bound, htidy₂⟩
      | ok args => exact (hence_ok _ _ _).2 (heeds_run hpast₂.bound ht htidy₂ rfl)
    · rw [hence_ok]
      obtain ⟨c, hc, hk⟩ := hid
      rw [← State.store_of_core heven₂.core] at hc
      obtain ⟨c', hc', hk'⟩ := hpast'.onward.1.collection id c hc
      exact heeds_install ht htidy' ⟨c', hc', hk'.trans hk⟩
    · rw [hence_ok, heeds_pure]
      exact htidy'

theorem heeds_check (hs : s.Bound k n) (ht : t.key? = some k) (htidy : Tidy k h s) :
    (workspace n).Heeds (tidiness t) i (fun _ h' s' => Tidy k h' s') h s :=
  heeds_serialized hs ht htidy fun _ _ hs' htidy' => heeds_checkHolding hs' ht htidy'

theorem heeds_restart (hs : s.Bound k n) (ht : t.key? = some k) (htidy : Tidy k h s) :
    (restart n).Heeds (tidiness t) i (fun _ h' s' => Tidy k h' s') h s := by
  refine heeds_serialized hs ht htidy fun h' s' hs' htidy' => ?_
  rw [heeds_bind]
  refine (heeds_stop hs' ht htidy').mono fun r h'' s'' hr => ?_
  cases r with
  | ok stopped => exact (hence_ok _ _ _).2 (heeds_checkHolding hr.1.bound ht hr.2)
  | error e => exact (hence_error _ _ _).2 hr.2

/-! ## Fragments -/

theorem heeds_logs {α : Type} {level : LogLevel} {source : LogSource} {text : α → String}
    {Q : Except Fault PUnit → History → State → Prop} (xs : List α)
    (hQ : ∀ s', s.Even s' → Q (.ok ⟨⟩) h s') :
    (xs.forM fun x => log level source (text x) : Op PUnit).Heeds (tidiness t) i Q h s := by
  induction xs generalizing s with
  | nil => exact (heeds_pure _).2 (hQ s (.refl s))
  | cons x xs ih =>
    rw [List.forM, heeds_bind, heeds_log, tidiness_write_record, true_and, hence_ok]
    exact ih fun s' heven => hQ s' ((State.even_record s _).trans heven)

theorem heeds_fragmentsHolding {document : String} {cells : List Cell} {language : String}
    (hs : s.Bound k n) (ht : t.key? = some k) (htidy : Tidy k h s) :
    (fragmentsHolding n document cells language).Heeds (tidiness t) i
      (fun _ h' s' => Tidy k h' s') h s := by
  rw [fragmentsHolding, heeds_bind]
  refine heeds_collection hs ht htidy fun id s₁ hpast htidy₁ hid => ?_
  simp only [hence_ok, heeds_bind, heeds_workspace]
  have hclear : ∀ r : CheckResult, (do
      change id (·.clear (.document document))
      return r : Op CheckResult).Heeds (tidiness t) i (fun _ h' s' => Tidy k h' s') h s₁ := by
    intro r
    rw [heeds_bind]
    refine heeds_change ht htidy₁ hid fun s' htidy' => ?_
    rw [hence_ok, heeds_pure]
    exact htidy'
  split
  · exact hclear _
  · rw [heeds_bind, heeds_look]
    cases Cell.targets cells language with
    | error e => exact (hence_error _ _ _).2 htidy₁
    | ok targets =>
      simp only [hence_ok]
      generalize Buffer.ofFragments targets language = buffer
      split
      · exact hclear _
      · simp only [heeds_bind, heeds_log, tidiness_write_record, true_and, hence_ok]
        generalize hs₂ : State.record s₁ _ = s₂
        have heven₂ : s₁.Even s₂ := hs₂ ▸ State.even_record s₁ _
        have hpast₂ := hpast.even heven₂
        have htidy₂ := htidy₁.even heven₂
        refine heeds_contained (k := k) (n := n) ?_ (fun run h' s' hpast' htidy' => ?_)
          fun r h' s' htidy' => ?_
        · rw [heeds_bind, heeds_look]
          cases (s₁.workspace n).checkerArgs _ with
          | error e => exact (hence_error _ _ _).2 ⟨.refl hpast₂.bound, htidy₂⟩
          | ok args => exact (hence_ok _ _ _).2 (heeds_runDirect hpast₂.bound ht htidy₂)
        · simp only [hence_ok, heeds_bind, findings, heeds_look]
          cases (Output.parse run.stdout).mapError Fault.digits with
          | error e => exact (hence_error _ _ _).2 htidy'
          | ok found =>
            simp only [hence_ok, heeds_bind, rebase]
            refine heeds_logs _ fun s₃ heven₃ => ?_
            have htidy₃ := htidy'.even heven₃
            simp only [isStale, hence_ok, heeds_bind, heeds_state, heeds_pure]
            split
            · simp only [heeds_bind, heeds_log, tidiness_write_record, true_and, hence_ok,
                heeds_pure]
              exact htidy₃.even (State.even_record s₃ _)
            · rw [heeds_bind]
              obtain ⟨c, hc, hk⟩ := hid
              rw [← State.store_of_core heven₂.core] at hc
              obtain ⟨c', hc', hk'⟩ := hpast'.onward.1.collection id c hc
              rw [← State.store_of_core heven₃.core] at hc'
              refine heeds_change ht htidy₃ ⟨c', hc', hk'.trans hk⟩ fun s₄ htidy₄ => ?_
              rw [hence_ok, heeds_pure]
              exact htidy₄
        · rw [hence_ok, heeds_pure]
          exact htidy'

theorem heeds_fragments {document : String} {cells : List Cell} {language : String}
    (hs : s.Bound k n) (ht : t.key? = some k) (htidy : Tidy k h s) :
    (fragments n document cells language).Heeds (tidiness t) i (fun _ h' s' => Tidy k h' s') h s :=
  heeds_serialized hs ht htidy fun _ _ hs' htidy' => heeds_fragmentsHolding hs' ht htidy'

/-! ## Daemons -/

theorem heeds_stopDaemon (hs : s.Bound k n) (ht : t.key? = some k) (htidy : Tidy k h s) :
    (stopDaemon n).Heeds (tidiness t) i (fun _ h' s' => Past k n h s h' s' ∧ Tidy k h' s') h s := by
  rw [stopDaemon, heeds_bind]
  refine (heeds_stop hs ht htidy).mono fun r h' s' hr => ?_
  cases r with
  | ok stopped =>
    simp only [hence_ok, heeds_bind, heeds_workspace, heeds_pure]
    exact hr
  | error e => exact (hence_error _ _ _).2 hr

theorem heeds_killDaemon (hs : s.Bound k n) (ht : t.key? = some k) (htidy : Tidy k h s) :
    (killDaemon n).Heeds (tidiness t) i (fun _ h' s' => Tidy k h' s') h s := by
  rw [killDaemon, heeds_bind]
  refine (heeds_kill hs ht htidy).mono fun r h' s' hr => ?_
  obtain ⟨hpast, htidy', -⟩ := hr
  cases r with
  | error e => exact (hence_error _ _ _).2 htidy'
  | ok killed =>
    rw [hence_ok]
    split
    · rw [heeds_bind]
      refine heeds_handle hpast.bound ht (fun id s₁ hid => ?_) fun e =>
        (hence_error _ _ _).2 htidy'
      simp only [hence_ok, withHandle, heeds_bind, heeds_state, heeds_act]
      refine ⟨(State.Touch.removal ht hid.entry).single, ?_⟩
      have htidy₁ := (hid.tidy htidy').even
        (State.even_withWorld s₁ ((s₁.handle id).removeStatusFile.exec s₁.world).2)
      cases ((s₁.handle id).removeStatusFile.exec s₁.world).1 with
      | error e => exact (hence_error _ _ _).2 htidy₁
      | ok removed =>
        simp only [hence_ok, heeds_bind, heeds_workspace, heeds_pure]
        exact htidy₁
    · simp only [heeds_bind, heeds_workspace, hence_ok, heeds_pure]
      exact htidy'

/-- The handle of a workspace is forgotten when the workspace has been removed. -/
theorem heeds_forget {Q : Except Fault Unit → History → State → Prop} (ht : t.key? = some k)
    (hdropped : s.Dropped k) (hkey : s.key n = k) (htidy : Tidy k h s)
    (hQ : ∀ s', Tidy k h s' → Q (.ok ()) h s') : (forget n).Heeds (tidiness t) i Q h s := by
  have hhandle : ∀ s' : State, s'.Dropped k → s'.key n = k → Tidy k h s' →
      (Daemon.forget n).Heeds (tidiness t) i Q h s' := by
    intro s' hdropped' hkey' htidy'
    have hkey'' : (s'.workspace n).key = k := hkey'
    rw [Daemon.forget]
    simp only [heeds_bind, heeds_workspace, hence_ok, heeds_modify, hkey'']
    exact ⟨(State.Touch.forget ht hdropped').single,
      hQ _ (htidy'.later (State.handlesLater_erase s' k) fun _ => rfl)⟩
  rw [forget]
  simp only [heeds_bind, heeds_workspace, hence_ok, heeds_modify]
  exact ⟨(State.Touch.aside t s _ _ _ _ _).single, hhandle _ hdropped hkey
    (tidy_of_handles htidy rfl rfl)⟩

end Check

/-! ## Requests that are about no registration -/

/-- Whoever is about no registration owes nothing. -/
theorem tidiness_duty_of_none (ht : t.key? = none) (what : Happening) :
    (tidiness t).duty h s what := by
  intro k hk
  rw [ht] at hk
  exact absurd hk (by simp)

namespace Supervisor

variable {root : String}

theorem heeds_find {Q : Except Fault (Option Nat) → History → State → Prop} {R : Rule}
    (hok : Q (.ok (Request.registeredAt s root)) h s) (herror : ∀ e, Q (.error e) h s) :
    (find root).Heeds R i Q h s := by
  rw [find, keyOf]
  simp only [heeds_bind, heeds_look]
  unfold Request.registeredAt at hok
  generalize s.world.resolve (Path.ofString root) = p at hok ⊢
  cases p with
  | error e =>
    rw [hence_error, hence_error]
    exact herror e
  | ok p =>
    simp only [hence_ok, heeds_pure, heeds_bind, heeds_state]
    exact hok

theorem heeds_require {Q : Except Fault Nat → History → State → Prop} {R : Rule}
    (hok : ∀ n, Request.registeredAt s root = some n → Q (.ok n) h s)
    (herror : ∀ e, Q (.error e) h s) : (require root).Heeds R i Q h s := by
  rw [require, heeds_bind]
  refine heeds_find ?_ fun e => (hence_error _ _ _).2 (herror e)
  rw [hence_ok]
  cases hn : Request.registeredAt s root with
  | some n => exact (heeds_pure n).2 (hok n hn)
  | none => exact (heeds_throw _).2 (herror _)

/-- Changes of registrations by whoever is about no registration. -/
theorem touches_register (hkey : t.key? = none) (ht : t.registers = true)
    (hhandles : s'.handles = s.handles) (hhandleOf : s'.handleOf = s.handleOf)
    (hdaemons : s'.daemons = s.daemons) (hworld : s'.world.environment = s.world.environment) :
    s.Touches t s' :=
  (State.Touch.register ht hhandles hhandleOf hdaemons hworld fun h => absurd hkey h).single

theorem heeds_applyDebugLogging {Q : Except Fault Unit → History → State → Prop}
    (hkey : t.key? = none) (ht : t.registers = true) (hQ : ∀ s', Q (.ok ()) h s') :
    applyDebugLogging.Heeds (tidiness t) i Q h s := by
  rw [applyDebugLogging, heeds_modify]
  refine ⟨?_, hQ _⟩
  split
  · exact touches_register hkey ht rfl rfl rfl rfl
  · exact .refl

theorem heeds_replaceSettings {Q : Except Fault Unit → History → State → Prop}
    {settings : Settings} (hkey : t.key? = none) (ht : t.registers = true)
    (hQ : ∀ s', Q (.ok ()) h s') : (replaceSettings n settings).Heeds (tidiness t) i Q h s := by
  rw [replaceSettings, heeds_bind, heeds_modify, hence_ok]
  exact ⟨touches_register hkey ht rfl rfl rfl rfl, heeds_applyDebugLogging hkey ht hQ⟩

theorem heeds_add {settings : Option Settings} (hkey : t.key? = none) (ht : t.registers = true) :
    (add root settings).Heeds (tidiness t) i (fun _ _ _ => True) h s := by
  rw [add]
  simp only [heeds_bind, heeds_look]
  cases Workspace.ofRoot s.world (Path.ofString root) (settings.getD {}) with
  | error e => exact (hence_error _ _ _).2 trivial
  | ok ws =>
    simp only [hence_ok, heeds_bind, heeds_state]
    cases s.registry.get? ws.key with
    | some n =>
      cases settings with
      | none => exact (heeds_pure n).2 trivial
      | some settings =>
        rw [heeds_bind]
        refine heeds_replaceSettings hkey ht fun s' => ?_
        rw [hence_ok, heeds_pure]
        trivial
    | none =>
      simp only [heeds_bind, heeds_modify, hence_ok]
      refine ⟨touches_register hkey ht rfl rfl rfl rfl,
        heeds_applyDebugLogging hkey ht fun s' => ?_⟩
      simp only [hence_ok, heeds_bind, heeds_log, tidiness_write_record, true_and, heeds_pure]

theorem heeds_update {settings : Settings} (hkey : t.key? = none) (ht : t.registers = true) :
    (update root settings).Heeds (tidiness t) i (fun _ _ _ => True) h s := by
  rw [update, heeds_bind]
  refine heeds_require (fun n _ => ?_) fun e => (hence_error _ _ _).2 trivial
  rw [hence_ok, heeds_bind]
  refine heeds_replaceSettings hkey ht fun s' => ?_
  rw [hence_ok, heeds_pure]
  trivial

theorem heeds_jobResults {Q : Except Fault (List CheckResult) → History → State → Prop}
    {rs : List (Nat × Except Fault CheckResult)} (hQ : ∀ rs s', Q (.ok rs) h s') :
    (rs.mapM fun x => jobResult x.1 x.2 : Op _).Heeds (tidiness t) i Q h s := by
  have hone : ∀ (n : Nat) (r : Except Fault CheckResult) {s : State}
      {Q : Except Fault CheckResult → History → State → Prop}, (∀ r s', Q (.ok r) h s') →
      (jobResult n r).Heeds (tidiness t) i Q h s := by
    intro n r s Q hQ
    cases r with
    | ok r => exact (heeds_pure _).2 (hQ r s)
    | error e =>
      rw [jobResult]
      simp only [heeds_bind, heeds_workspace, heeds_log, tidiness_write_record, true_and, hence_ok,
        heeds_pure]
      exact hQ _ _
  induction rs generalizing s Q with
  | nil => exact (heeds_pure []).2 (hQ [] s)
  | cons x rs ih =>
    rw [List.mapM_cons, heeds_bind]
    refine hone x.1 x.2 fun r s₁ => ?_
    rw [hence_ok, heeds_bind]
    refine ih fun rs' s₂ => ?_
    rw [hence_ok, heeds_pure]
    exact hQ _ s₂

theorem heeds_fanOut {job : Nat → Job} (hkey : t.key? = none) :
    (fanOut job).Heeds (tidiness t) i (fun _ _ _ => True) h s := by
  rw [fanOut]
  simp only [heeds_bind, heeds_state, hence_ok, heeds_gather]
  refine ⟨tidiness_duty_of_none hkey _, fun rs s₁ _ _ => heeds_jobResults fun results s₂ => ?_⟩
  simp only [hence_ok]
  split
  · simp only [heeds_bind, heeds_log, tidiness_write_record, true_and, hence_ok, heeds_pure]
  · exact (heeds_pure _).2 trivial

theorem heeds_start : start.Heeds (tidiness t) i (fun _ _ _ => True) h s := by
  rw [start]
  simp only [heeds_bind, heeds_modify, hence_ok, heeds_log, tidiness_write_record, and_true]
  exact (State.Touch.aside t s _ _ _ _ _).single

theorem heeds_shutdown (hkey : t.key? = none) :
    shutdown.Heeds (tidiness t) i (fun _ _ _ => True) h s := by
  rw [shutdown, stopAll, heeds_bind]
  refine (heeds_fanOut hkey).mono fun r h' s' _ => ?_
  cases r with
  | ok report =>
    simp only [hence_ok, heeds_bind, heeds_modify, heeds_log, tidiness_write_record, heeds_pure,
      and_true]
    exact (State.Touch.aside t s' _ _ _ _ _).single
  | error e => exact (hence_error _ _ _).2 trivial

/-- Removing a registration leaves all workspaces as they are. -/
theorem touches_removal {f : Registration → Registration} (ht : t.registers = true) (n : Nat)
    (hf : ∀ r, (f r).workspace = r.workspace ∧ (r.removed = true → (f r).removed = true)) :
    s.Touches t (s.setRegistration n f) := by
  have hregistration : ∀ m, (s.setRegistration n f).registration m = s.registration m ∨
      (s.setRegistration n f).registration m = f (s.registration m) := by
    intro m
    simp only [State.registration, State.registrations_setRegistration, List.getElem?_modify]
    cases s.registrations[m]? with
    | none => exact .inl rfl
    | some r =>
      by_cases hm : n = m
      · exact .inr (by simp [hm])
      · exact .inl (by simp [hm])
  refine .single (.register ht rfl rfl rfl rfl fun _ => ⟨by simp, fun m => ?_, fun m hm => ?_⟩)
  · rw [State.workspace, State.workspace]
    rcases hregistration m with h | h
    · rw [h]
    · rw [h, (hf _).1]
  · have hm' : (s.registration m).removed = true := hm
    show ((s.setRegistration n f).registration m).removed = true
    rcases hregistration m with h | h
    · rw [h, hm']
    · rw [h, (hf _).2 hm']

/-- A removal stops the daemon of the workspace, and forgets its handle at the end. -/
theorem heeds_remove (hs : s.Coherent) (hsound : s.HandlesSound) (htidy : ∀ k, Tidy k h s)
    (hkey : t.key? = (Request.registeredAt s root).map s.key) (ht : t.registers = true) :
    (remove root).Heeds (tidiness t) i
      (fun _ h' s' => ∀ k, t.key? = some k → Tidy k h' s') h s := by
  rw [remove, keyOf]
  simp only [heeds_bind, heeds_look]
  unfold Request.registeredAt at hkey
  generalize s.world.resolve (Path.ofString root) = p at hkey ⊢
  cases p with
  | error e =>
    rw [hence_error, hence_error]
    exact fun k _ => htidy k
  | ok p =>
    simp only [hence_ok, heeds_pure, heeds_bind, heeds_state] at hkey ⊢
    cases hn : s.registry.get? p.text with
    | none => exact (heeds_pure false).2 fun k _ => htidy k
    | some n =>
      rw [hn] at hkey
      replace hkey : t.key? = some (s.key n) := hkey
      obtain ⟨hknown, hp, -⟩ := hs.registered _ _ hn
      have hgentle := State.gentle_withoutRegistration hs hn
      have hlater : s.HandlesLater (s.withoutRegistration p.text n) := .of_eq rfl rfl
      have hbound : (s.withoutRegistration p.text n).Bound (s.key n) n :=
        (State.Bound.mk hs hsound hknown rfl).onward hgentle.onward hlater
      have hremoved : (s.withoutRegistration p.text n).isRemoved n = true := by
        simp [State.isRemoved_withoutRegistration s p.text n hknown]
      simp only [heeds_bind, heeds_modify, disposeStore, hence_ok]
      refine ⟨.single (.register ht rfl rfl rfl rfl fun _ => ⟨rfl, fun _ => rfl, fun _ h => h⟩),
        touches_removal (f := fun r => { r with removed := true }) ht n fun _ =>
          ⟨rfl, fun _ => rfl⟩,
        .single (.register ht rfl rfl rfl (World.environment_react _ _) fun _ =>
          ⟨rfl, fun _ => rfl, fun _ h => h⟩), ?_⟩
      refine (Check.heeds_stopDaemon hbound hkey
        (tidy_of_handles (htidy (s.key n)) rfl rfl)).mono fun r h' s' hr => ?_
      obtain ⟨hpast, htidy'⟩ := hr
      have hall : ∀ {h' s'}, Tidy (s.key n) h' s' → ∀ k, t.key? = some k → Tidy k h' s' := by
        intro h' s' htidy' k hk
        obtain rfl := Option.some.inj (hkey.symm.trans hk)
        exact htidy'
      cases r with
      | error e => exact (hence_error _ _ _).2 (hall htidy')
      | ok stopped =>
        have hdropped : s'.Dropped (s.key n) :=
          hpast.onward.1.dropped ⟨n, hbound.known, hremoved, hbound.key⟩
        rw [hence_ok, heeds_bind]
        refine Check.heeds_forget hkey hdropped hpast.bound.key htidy' fun s'' htidy'' => ?_
        simp only [hence_ok, heeds_bind, heeds_workspace, heeds_log, tidiness_write_record,
          true_and, heeds_pure]
        exact hall (htidy''.even (State.even_record s'' _))

end Supervisor

/-- A signal leads to a check of the registered workspace at most. -/
theorem Supervisor.heeds_signal {P : History → State → Prop} {root : String}
    {reason : Supervisor.Signal} {paths : List String} (hP : ∀ s', s.Even s' → P h s')
    (hcheck : ∀ n s', Request.registeredAt s root = some n → s.Even s' →
      (Check.workspace n).Heeds (tidiness t) i (fun _ h' s' => P h' s') h s' ∧
        (Check.restart n).Heeds (tidiness t) i (fun _ h' s' => P h' s') h s') :
    (signal root reason paths).Heeds (tidiness t) i (fun _ h' s' => P h' s') h s := by
  have hrefl := State.Even.refl s
  have hsome : ∀ {p : Op CheckResult} {s'}, p.Heeds (tidiness t) i (fun _ h' s' => P h' s') h s' →
      (do return some (← p) : Op (Option CheckResult)).Heeds (tidiness t) i
        (fun _ h' s' => P h' s') h s' := by
    intro p s' hp
    rw [heeds_bind]
    refine hp.mono fun r h' s' hr => ?_
    cases r with
    | ok r => exact (hence_ok _ _ _).2 ((heeds_pure _).2 hr)
    | error e => exact (hence_error _ _ _).2 hr
  rw [signal, heeds_bind]
  refine heeds_find ?_ fun e => (hence_error _ _ _).2 (hP s hrefl)
  rw [hence_ok]
  cases hn : Request.registeredAt s root with
  | none =>
    simp only [heeds_bind, heeds_log, tidiness_write_record, true_and, hence_ok, heeds_pure]
    exact hP _ (State.even_record s _)
  | some n =>
    have hchecked := hsome (hcheck n s hn hrefl).1
    simp only [heeds_bind, heeds_workspace, hence_ok]
    split
    · simp only [heeds_bind, heeds_log, tidiness_write_record, true_and, hence_ok]
      rw [← heeds_bind]
      exact hsome (hcheck n _ hn (State.even_record s _)).2
    · split
      · rw [heeds_bind, heeds_look]
        cases (s.workspace n).configFile s.world with
        | error e => exact (hence_error _ _ _).2 (hP s hrefl)
        | ok config =>
          rw [hence_ok, heeds_bind, heeds_look]
          cases Watch.filterRelevant s.world (s.workspace n).root config paths with
          | error e => exact (hence_error _ _ _).2 (hP s hrefl)
          | ok relevant =>
            rw [hence_ok]
            split
            · simp only [heeds_bind, heeds_log, tidiness_write_record, true_and, hence_ok,
                heeds_pure]
              exact hP _ (State.even_record s _)
            · exact hchecked
      · exact hchecked

/-! ## All requests -/

/-- What is owed at the end does not depend on the reply. -/
theorem heeds_reply {α : Type} {p : Op α} {f : α → Reply} {P : History → State → Prop}
    (hp : p.Heeds (tidiness t) i (fun _ h' s' => P h' s') h s) :
    (do return f (← p) : Op Reply).Heeds (tidiness t) i (fun _ h' s' => P h' s') h s := by
  rw [heeds_bind]
  refine hp.mono fun r h' s' hr => ?_
  cases r with
  | ok a => exact (hence_ok _ _ _).2 ((heeds_pure _).2 hr)
  | error e => exact (hence_error _ _ _).2 hr

/-- A job on a registration deals with its workspace. -/
theorem Job.heeds_operation (j : Job) (hs : s.Bound k j.number) (htidy : Tidy k h s) :
    j.operation.Heeds (tidiness ⟨some k, false⟩) i (fun _ h' s' => Tidy k h' s') h s := by
  cases j with
  | check n => exact Check.heeds_check hs rfl htidy
  | restart n => exact Check.heeds_restart hs rfl htidy
  | stop n => exact (Check.heeds_stopDaemon hs rfl htidy).mono fun _ _ _ hr => hr.2

/-- Every request keeps to its remit and keeps marks tidy. -/
theorem Request.heeds_operation (q : Request) (hq : q.isKnown s = true) (hs : s.Coherent)
    (hsound : s.HandlesSound) (htidy : ∀ k, Tidy k h s) :
    q.operation.Heeds (tidiness (q.remit s)) i
      (fun _ h' s' => ∀ k, (q.remit s).key? = some k → Tidy k h' s') h s := by
  -- a request about no registration owes nothing
  have hnone : ∀ {α : Type} {p : Op α} {f : α → Reply}, (q.remit s).key? = none →
      p.Heeds (tidiness (q.remit s)) i (fun _ _ _ => True) h s →
      (do return f (← p) : Op Reply).Heeds (tidiness (q.remit s)) i
        (fun _ h' s' => ∀ k, (q.remit s).key? = some k → Tidy k h' s') h s := by
    intro α p f hkey hp
    refine heeds_reply (hp.mono fun _ h' s' _ k hk => ?_)
    rw [hkey] at hk
    exact absurd hk (by simp)
  have hsome : ∀ {n : Nat} {p : Op CheckResult} {s'}, q.subject s = some n →
      p.Heeds (tidiness (q.remit s)) i (fun _ h' s' => Tidy (s.key n) h' s') h s' →
      p.Heeds (tidiness (q.remit s)) i
        (fun _ h' s' => ∀ k, (q.remit s).key? = some k → Tidy k h' s') h s' := by
    intro n p s' hn hp
    refine hp.mono fun _ h' s' htidy' k hk => ?_
    rw [remit, hn] at hk
    cases hk
    exact htidy'
  have hkey : ∀ {n}, q.subject s = some n → (q.remit s).key? = some (s.key n) := fun hn => by
    rw [remit, hn]
    rfl
  have hbound : ∀ {n}, n < s.registrations.length → s.Bound (s.key n) n := fun hn =>
    ⟨hs, hsound, hn, rfl⟩
  cases q with
  | start => exact hnone (f := fun _ => .nothing) rfl Supervisor.heeds_start
  | shutdown => exact hnone rfl (Supervisor.heeds_shutdown rfl)
  | add root settings => exact hnone rfl (Supervisor.heeds_add rfl rfl)
  | update root settings => exact hnone rfl (Supervisor.heeds_update rfl rfl)
  | recheckAll | restartAll | stopAll => exact hnone rfl (Supervisor.heeds_fanOut rfl)
  | remove root =>
    refine heeds_reply ?_
    have hkey : (remit (.remove root) s).key? = (registeredAt s root).map s.key := by
      simp only [remit, subject]
    exact Supervisor.heeds_remove hs hsound htidy hkey rfl
  | check root =>
    refine heeds_reply ?_
    rw [Supervisor.check, heeds_bind]
    refine Supervisor.heeds_require (fun n hn => ?_) fun e =>
      (hence_error _ _ _).2 fun k _ => htidy k
    exact (hence_ok _ _ _).2 (hsome hn (Check.heeds_check
      (hbound (Supervisor.known_of_registeredAt hs hn)) (hkey hn) (htidy _)))
  | notebook root document cells language =>
    refine heeds_reply ?_
    rw [Supervisor.notebook, heeds_bind]
    refine Supervisor.heeds_require (fun n hn => ?_) fun e =>
      (hence_error _ _ _).2 fun k _ => htidy k
    exact (hence_ok _ _ _).2 (hsome hn (Check.heeds_fragments
      (hbound (Supervisor.known_of_registeredAt hs hn)) (hkey hn) (htidy _)))
  | signal root reason paths =>
    rw [operation, heeds_bind]
    refine (Supervisor.heeds_signal (P := fun h' s' =>
      ∀ k, (remit (.signal root reason paths) s).key? = some k → Tidy k h' s')
      (fun s' heven k _ => (htidy k).even heven) fun n s' hn heven => ?_).mono fun r h' s' hr => ?_
    · have hs' := (hbound (Supervisor.known_of_registeredAt hs hn)).even heven
      have htidy' := (htidy (s.key n)).even heven
      exact ⟨hsome hn (Check.heeds_check hs' (hkey hn) htidy'),
        hsome hn (Check.heeds_restart hs' (hkey hn) htidy')⟩
    · cases r with
      | error e => exact (hence_error _ _ _).2 hr
      | ok r => cases r <;> exact (hence_ok _ _ _).2 ((heeds_pure _).2 hr)
  | job j =>
    have hn : j.number < s.registrations.length := of_decide_eq_true hq
    refine heeds_reply (hsome (n := j.number) rfl ?_)
    exact j.heeds_operation (hbound hn) (htidy _)
  | fragments n document cells language =>
    exact heeds_reply (hsome (n := n) rfl (Check.heeds_fragments (hbound (of_decide_eq_true hq))
      (hkey (n := n) rfl) (htidy _)))
  | kill n =>
    exact heeds_reply (hsome (n := n) rfl (Check.heeds_killDaemon (hbound (of_decide_eq_true hq))
      (hkey (n := n) rfl) (htidy _)))

end Overseer
