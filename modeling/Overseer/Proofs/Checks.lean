import Overseer.Proofs.Conduct

set_option autoImplicit false

/-! # Checks conduct themselves well

A check takes the lock of its workspace, does its work inside, and gives the lock back. Inside,
it may end without having changed any diagnostics (`concluded_of_calm`), or with a change of the
collection of its workspace (`concluded_change`). One lemma for each way through a check puts
the two together. -/

namespace Overseer

open Op History

variable {i : TaskId} {h : History} {s s' : State} {q : Request} {n l : Nat}

theorem mapError_ok {ε ε' α : Type} (f : ε → ε') (a : α) :
    (Except.ok a : Except ε α).mapError f = .ok a := rfl

/-! ## Inside the lock -/

namespace History

/-- A check is at work inside the lock of its workspace. -/
structure Working (h : History) (s : State) (q : Request) (n l : Nat) : Prop where
  calm : h.Calm s
  request : h.request? = some q
  isCheck : q.isCheck = true
  subject : h.subject? = some n
  holding : h.holding = some l
  entered : h.hasEntered = true
  known : n < s.registrations.length

/-- A check is inside the lock of its workspace, and has done nothing there but stop a daemon. -/
structure Inside (h : History) (s : State) (q : Request) (n l : Nat) : Prop
    extends h.Working s q n l where
  began : h.began?.isSome = true
  stops : ∀ x ∈ h.calls, Daemon.IsStop x.1
  restart : h.calls ≠ [] → q.isRestart = true

theorem Working.core (hw : h.Working s q n l) (hs : s'.core = s.core) : h.Working s' q n l :=
  { hw with
    calm := hw.calm.core hs
    known := by rw [State.registrations_of_core hs]; exact hw.known }

theorem Inside.core (hin : h.Inside s q n l) (hs : s'.core = s.core) : h.Inside s' q n l :=
  { hin with toWorking := hin.toWorking.core hs }

theorem Inside.vain (hin : h.Inside s q n l) : ∀ d ∈ h.dealings, Daemon.Vain d :=
  fun _ hd => (hin.stops _ (mem_calls_of_mem_dealings hd)).vain

/-- The collection of the workspace is asked for, by a check that is about to begin. -/
theorem Inside.withCollection (hin : h.Inside s q n l)
    (hlive : s.isRemoved n = false ∨ h.Outlives s (s.key n)) :
    h.Inside (s.withCollection (s.key n)) q n l :=
  { hin with
    calm := hin.calm.withCollection <| hlive.imp_left fun hr => by
      rw [hin.calm.coherent.unremoved n hin.known hr]
      simp
    known := hin.known }

/-- Once its registration has been removed a check cannot be held to the workspace. -/
theorem Working.not_tended (hw : h.Working s q n l) (hr : s.isRemoved n = true) :
    ¬ h.Tended s (s.key n) := by
  rintro (hk | ⟨m, hm, -, hr', -⟩)
  · exact hk ⟨n, hw.known, hr, rfl⟩
  · obtain rfl : n = m := Option.some.inj (hw.subject.symm.trans hm)
    rw [hr] at hr'
    exact absurd hr' (by simp)

/-- A check may give its lock back with a result. -/
structure Concluded (h : History) (s : State) (l : Nat) (r : Except Fault CheckResult) : Prop where
  steady : h.Steady s
  holding : h.holding = some l
  entered : h.hasEntered = true
  named : h.Named s (r.map .checked)
  answered : h.Answered s (r.map .checked)
  refiled : ∀ k, h.Tended s k → h.Refiled s (r.map .checked) k
  counted : ∀ k, h.Tended s k → h.Counted s (r.map .checked) k
  strays : ∀ k, s.Stray k → h.start.Stray k ∨ h.Outlives s k
  placed : h.Placed s
  reported : h.Reported s (r.map .checked)

theorem Outlives.left {k : String} (hk : h.Outlives s k) :
    Outlives (⟨i, .left l, s'⟩ :: h) s k := by
  obtain ⟨q, hq, n, hn, hrestart, hentered, hrest⟩ := hk
  exact ⟨q, hq, n, hn, hrestart, by simpa [hasEntered] using hentered, hrest⟩

theorem Concluded.settled {r : Except Fault CheckResult} (hc : h.Concluded s l r) :
    Settled (⟨i, .left l, s⟩ :: h) s (r.map .checked) where
  steady := hc.steady
  holding := rfl
  entered _ := by simpa [hasEntered] using hc.entered
  named := hc.named
  answered := hc.answered
  refiled := hc.refiled
  counted := hc.counted
  strays k hk := (hc.strays k hk).imp_right Outlives.left
  placed := hc.placed
  reported := hc.reported

theorem answered_ok (r : CheckResult) : h.Answered s (.ok (.checked r)) :=
  fun _ _ _ _ => .checked r

theorem Working.answered {r : Except Fault CheckResult} (hw : h.Working s q n l)
    (hr : Daemon.Escapes (q.Excuse n h.answer? s) r) : h.Answered s (r.map .checked) := by
  intro q' hq' n' hn'
  obtain rfl : q = q' := Option.some.inj (hw.request.symm.trans hq')
  obtain rfl : n = n' := eq_of_number? hq' hw.subject hn'
  exact Request.answers_of_escapes hr

/-- Nothing has been changed and there is nothing to show for it. -/
theorem concluded_of_calm {r : Except Fault CheckResult} (hw : h.Working s q n l)
    (hreported : h.Reported s (r.map .checked)) (hnamed : h.Named s (r.map .checked))
    (hescapes : Daemon.Escapes (q.Excuse n h.answer? s) r)
    (hr : ∀ k, h.Tended s k → h.verdict? (r.map .checked) k = none) : h.Concluded s l r where
  steady := hw.calm.steady
  holding := hw.holding
  entered := hw.entered
  named := hnamed
  answered := hw.answered hescapes
  refiled k hk := by
    rw [Refiled, hr k hk]
    exact hw.calm.filed_of_tended hk
  counted k hk := by
    rw [Counted, hr k hk]
    trivial
  strays := hw.calm.strays
  placed _ _ hc _ he := .inl (hw.calm.exists_entry hc he)
  reported := hreported

theorem verdict?_eq_none {reply : Except Fault Reply}
    (hr : ∀ r, reply = .ok (.checked r) → r.ok = false) (k : String) :
    h.verdict? reply k = none := by
  unfold verdict?
  split
  · next r q _ => simp [hr r rfl]
  · rfl

theorem verdict?_of_ne {r : CheckResult} {k : String} (hr : r.workspace ≠ k) :
    h.verdict? (.ok (.checked r)) k = none := by
  cases hq : h.request? with
  | none => simp [verdict?, hq]
  | some q => simp [verdict?, hq, hr]

theorem verdict?_self {r : CheckResult} (hq : h.request? = some q) (hcheck : q.isCheck = true)
    (hok : r.ok = true) : h.verdict? (.ok (.checked r)) r.workspace = some (q, r) := by
  simp [verdict?, hq, hok, hcheck]

/-- A check that ends well has a verdict on its workspace. -/
theorem Settled.verdict?_eq {r : CheckResult} (hsettled : h.Settled s (.ok (.checked r)))
    (hq : h.request? = some q) (hcheck : q.isCheck = true) (hn : h.subject? = some n)
    (hok : r.ok = true) : h.verdict? (.ok (.checked r)) (s.key n) = some (q, r) := by
  rw [← hsettled.named q hq hcheck n hn r rfl hok]
  exact verdict?_self hq hcheck hok

/-- A check that failed has nothing to show. -/
theorem concluded_of_failed {r : CheckResult} (hw : h.Working s q n l)
    (hreported : h.Reported s (.ok (.checked r))) (hr : r.ok = false) :
    h.Concluded s l (.ok r) := by
  have hfalse : ∀ r', (.ok (.checked r) : Except Fault Reply) = .ok (.checked r') →
      r'.ok = false := by
    rintro _ ⟨⟩
    exact hr
  refine concluded_of_calm hw hreported (fun _ _ _ _ _ r' hreply hok => ?_) (Daemon.escapes_ok _ _)
    fun k _ => verdict?_eq_none hfalse k
  rw [hfalse r' hreply] at hok
  exact absurd hok (by simp)

/-- A check that lets a fault escape has nothing to show. -/
theorem concluded_of_excuse {e : Fault} (hw : h.Working s q n l)
    (hreported : h.Reported s (.error e)) (hfailure : Daemon.isFailure e = false)
    (hexcuse : q.Excuse n h.answer? s e) :
    h.Concluded s l (.error e) := by
  refine concluded_of_calm hw hreported
    (fun _ _ _ _ _ r hreply => absurd hreply (by simp [Except.map])) ?_ fun _ _ => rfl
  rintro _ ⟨⟩
  exact ⟨hfailure, hexcuse⟩

/-- A check whose registration has been removed shows nothing. -/
theorem concluded_stale (hw : h.Working s q n l) (hremoved : s.isRemoved n = true)
    {r : CheckResult} (hreported : h.Reported s (.ok (.checked r))) (hr : r.workspace = s.key n) :
    h.Concluded s l (.ok r) := by
  refine concluded_of_calm hw hreported (fun _ _ _ m hm result hreply _ => ?_)
    (Daemon.escapes_ok _ _) fun k hk => verdict?_of_ne ?_
  · cases hreply
    obtain rfl : n = m := Option.some.inj (hw.subject.symm.trans hm)
    exact hr
  · rintro rfl
    rw [hr] at hk
    exact hw.not_tended hremoved hk

/-- A collection of the workspace that a check is about, current as long as the registration has
not been removed. -/
structure Collected (s : State) (n id : Nat) : Prop where
  found : ∃ c, s.store.at? id = some c ∧ c.workspace = s.key n
  current : s.isRemoved n = false → s.store.current.get? (s.key n) = some id

theorem Collected.onward {id : Nat} (hid : Collected s n id) (hn : n < s.registrations.length)
    (hs : s.Onward s') : Collected s' n id := by
  obtain ⟨c, hc, hw⟩ := hid.found
  obtain ⟨c', hc', hw'⟩ := hs.1.collection id c hc
  rw [← hs.1.key n hn] at hw
  refine ⟨⟨c', hc', hw'.trans hw⟩, fun hr => ?_⟩
  rw [hs.1.key n hn]
  exact hs.1.kept n hn hr id (hid.current (hs.1.not_removed hn hr))

theorem Collected.core {id : Nat} (hid : Collected s n id) (hs : s'.core = s.core) :
    Collected s' n id := by
  obtain ⟨hfound, hcurrent⟩ := hid
  rw [← State.key_of_core hs, ← State.store_of_core hs] at hfound hcurrent
  rw [← State.isRemoved_of_core hs] at hcurrent
  exact ⟨hfound, hcurrent⟩

theorem document?_of_isWhole (hq : q.isWhole = true) : q.document? = none := by
  cases q with
  | notebook => exact absurd hq (by simp [Request.isWhole])
  | fragments => exact absurd hq (by simp [Request.isWhole])
  | _ => rfl

theorem counts_of_isWhole {r : CheckResult} {before after : List (DocumentKey × List Diagnostic)}
    (hq : q.isWhole = true)
    (hcount : r.diagnostics = (Collection.under DocumentKey.isFile after).length) :
    q.Counts r before after where
  whole _ := hcount
  fragments document hdocument _ := by
    rw [document?_of_isWhole hq] at hdocument
    exact absurd hdocument (by simp)
  obstructed document hdocument _ := by
    rw [document?_of_isWhole hq] at hdocument
    exact absurd hdocument (by simp)

/-- What is filed for a workspace before and after a change of its collection. -/
theorem filed_change (hw : h.Working s q n l) {id : Nat} {c : Collection} (hid : Collected s n id)
    (hc : s.store.at? id = some c) {f : Collection → Collection × Delta}
    (hf : ∀ c, (f c).1.workspace = c.workspace ∧ (f c).1.disposed = c.disposed)
    (hs' : s'.core = (s.withChange id f).core) (hk : h.Tended s (s.key n)) :
    c.disposed = false ∧ h.start.filed (s.key n) = c.entries.entries ∧
      s'.filed (s.key n) = (f c).1.entries.entries := by
  obtain ⟨c', hc', hworkspace⟩ := hid.found
  obtain rfl : c = c' := Option.some.inj (hc.symm.trans hc')
  have hs := hw.calm.coherent
  have hremoved : s.isRemoved n = false := by
    cases hremoved : s.isRemoved n with
    | false => rfl
    | true => exact absurd hk (hw.not_tended hremoved)
  have hcurrent := hid.current hremoved
  refine ⟨?_, ?_, ?_⟩
  · obtain ⟨c', hc', -, hd⟩ := hs.current _ _ hcurrent
    obtain rfl : c = c' := Option.some.inj (hc.symm.trans hc')
    exact hd
  · rw [← hw.calm.filed_of_tended hk]
    simp [State.filed, Store.find?, hcurrent, hc]
  · rw [State.filed_of_core hs', ← hworkspace]
    exact (State.onward_withChange hs hc hf).2.1 (by rw [hworkspace]; exact hcurrent)

/-- What is filed has been changed in the collection of a workspace, and the result stands for
the change. -/
theorem refiled_change (hw : h.Working s q n l) {r : CheckResult} (hok : r.ok = true)
    (hr : r.workspace = s.key n) {id : Nat} {c : Collection} (hid : Collected s n id)
    (hc : s.store.at? id = some c) {f : Collection → Collection × Delta}
    (hf : ∀ c, (f c).1.workspace = c.workspace ∧ (f c).1.disposed = c.disposed)
    (hs' : s'.core = (s.withChange id f).core)
    (hwhole : ∀ c, c.disposed = false → q.isWhole = true → ∃ new,
      Collection.Replaced DocumentKey.isFile c.entries.entries (f c).1.entries.entries new ∧
        Request.WholeShown h.answer? s'.world r new)
    (hfragments : ∀ c document, c.disposed = false → q.document? = some document →
      (q.Obstructed document r c.entries.entries →
        (f c).1.entries.entries = c.entries.entries.filter fun e => e.1 ≠ .file document) ∧
      (¬ q.Obstructed document r c.entries.entries → ∃ new,
        Collection.Replaced (DocumentKey.isFragmentOf document) c.entries.entries
          (f c).1.entries.entries new ∧ Request.FragmentsShown h.answer? q document r new))
    {k : String} (hk : h.Tended s k) : h.Refiled s' (.ok (.checked r)) k := by
  rw [Refiled]
  by_cases hrk : k = s.key n
  · subst hrk
    obtain ⟨hd, hbefore, hafter⟩ := filed_change hw hid hc hf hs' hk
    rw [← hr, verdict?_self hw.request hw.isCheck hok, hr, hbefore, hafter]
    exact ⟨hwhole c hd, fun document => hfragments c document hd⟩
  · obtain ⟨c', hc', hworkspace⟩ := hid.found
    obtain rfl : c = c' := Option.some.inj (hc.symm.trans hc')
    rw [verdict?_of_ne (by rw [hr]; exact Ne.symm hrk), State.filed_of_core hs']
    show (s.withChange id f).filed k = h.start.filed k
    rw [(State.onward_withChange hw.calm.coherent hc hf).2.2 k (by rw [hworkspace]; exact hrk)]
    exact hw.calm.filed_of_tended hk

/-- What is filed has been changed in the collection of a workspace, and the result counts it. -/
theorem counted_change (hw : h.Working s q n l) {r : CheckResult} (hok : r.ok = true)
    (hr : r.workspace = s.key n) {id : Nat} {c : Collection} (hid : Collected s n id)
    (hc : s.store.at? id = some c) {f : Collection → Collection × Delta}
    (hf : ∀ c, (f c).1.workspace = c.workspace ∧ (f c).1.disposed = c.disposed)
    (hs' : s'.core = (s.withChange id f).core)
    (hcounts : ∀ c, c.disposed = false → r.skipped = false →
      q.Counts r c.entries.entries (f c).1.entries.entries)
    {k : String} (hk : h.Tended s k) : h.Counted s' (.ok (.checked r)) k := by
  rw [Counted]
  by_cases hrk : k = s.key n
  · subst hrk
    obtain ⟨hd, hbefore, hafter⟩ := filed_change hw hid hc hf hs' hk
    rw [← hr, verdict?_self hw.request hw.isCheck hok, hr, hbefore, hafter]
    exact hcounts c hd
  · rw [verdict?_of_ne (by rw [hr]; exact Ne.symm hrk)]
    trivial

/-- A change of the collection of a workspace that files something does so for a registration
that has not been removed. -/
theorem placed_change (hw : h.Working s q n l) {id : Nat} {c : Collection}
    (hid : Collected s n id) (hc : s.store.at? id = some c) {f : Collection → Collection × Delta}
    (hs' : s'.core = (s.withChange id f).core)
    (hadds : s.isRemoved n = false ∨ (f c).1.entries.entries ⊆ c.entries.entries) :
    h.Placed s' := by
  intro id' c' hc' e he
  rw [State.store_of_core hs'] at hc'
  by_cases hne : id' = id
  · subst hne
    rw [State.at?_withChange_self hc f] at hc'
    cases hc'
    rcases hadds with hr | hsubset
    · refine .inr ⟨q, hw.request, n, hw.subject, hw.isCheck, ?_⟩
      rw [State.registrations_of_core hs', State.isRemoved_of_core hs', State.key_of_core hs',
        State.store_of_core hs', State.current_withChange hc]
      exact ⟨hw.known, hr, hid.current hr⟩
    · exact .inl (hw.calm.exists_entry hc (hsubset he))
  · rw [State.at?_withChange_of_ne hc f hne] at hc'
    exact .inl (hw.calm.exists_entry hc' he)

/-- The collection of the workspace has been changed, and the result stands for the change. -/
theorem concluded_change (hw : h.Working s q n l) {r : CheckResult}
    (hreported : h.Reported s' (.ok (.checked r))) (hok : r.ok = true)
    (hr : r.workspace = s.key n) {id : Nat} (hid : Collected s n id)
    {f : Collection → Collection × Delta}
    (hf : ∀ c, (f c).1.workspace = c.workspace ∧ (f c).1.disposed = c.disposed)
    (hadds : s.isRemoved n = false ∨ ∀ c, (f c).1.entries.entries ⊆ c.entries.entries)
    (hs' : s'.core = (s.withChange id f).core)
    (hwhole : ∀ c, c.disposed = false → q.isWhole = true → ∃ new,
      Collection.Replaced DocumentKey.isFile c.entries.entries (f c).1.entries.entries new ∧
        Request.WholeShown h.answer? s'.world r new)
    (hfragments : ∀ c document, c.disposed = false → q.document? = some document →
      (q.Obstructed document r c.entries.entries →
        (f c).1.entries.entries = c.entries.entries.filter fun e => e.1 ≠ .file document) ∧
      (¬ q.Obstructed document r c.entries.entries → ∃ new,
        Collection.Replaced (DocumentKey.isFragmentOf document) c.entries.entries
          (f c).1.entries.entries new ∧ Request.FragmentsShown h.answer? q document r new))
    (hcounts : ∀ c, c.disposed = false → r.skipped = false →
      q.Counts r c.entries.entries (f c).1.entries.entries) :
    h.Concluded s' l (.ok r) := by
  obtain ⟨c, hc, -⟩ := hid.found
  obtain ⟨hon, -, -⟩ := State.onward_withChange hw.calm.coherent hc hf
  have hon' : s.Onward s' := hon.trans (.of_core hs' hon.2)
  exact {
    steady := hw.calm.steady.trans hon' fun k l hl => .inl <| by
      rw [State.lockOf_of_core hs']
      exact hl
    holding := hw.holding
    entered := hw.entered
    named := fun _ _ _ m hm result hreply _ => by
      cases hreply
      obtain rfl : n = m := Option.some.inj (hw.subject.symm.trans hm)
      rw [hr, hon'.1.key n hw.known]
    answered := answered_ok r
    refiled := fun k hk => refiled_change hw hok hr hid hc hf hs' hwhole hfragments
      (hk.earlier hw.calm.onward hon'.1)
    counted := fun k hk => counted_change hw hok hr hid hc hf hs' hcounts
      (hk.earlier hw.calm.onward hon'.1)
    strays := fun k hk => by
      rw [State.stray_of_core hs', State.Stray, State.current_withChange hc] at hk
      exact (hw.calm.strays k hk).imp_right fun ho => ho.later hon'.1
    placed := placed_change hw hid hc hs' (hadds.imp_right fun hsubset => hsubset c)
    reported := hreported }

end History

/-! ## Parts of a check -/

namespace Check

variable {α : Type}

@[simp] theorem keeps_collection {Q : Except Fault Nat → History → State → Prop} :
    (collection n).Keeps (conduct i) Q h s ↔
      Q (.ok (s.store.collection (s.key n)).2) h (s.withCollection (s.key n)) := by
  rw [collection]
  simp only [keeps_bind, keeps_state, next_ok, keeps_modify, conduct_write, true_and, keeps_pure]
  rfl

/-- The collection that a check works with. -/
theorem collected (hs : s.Coherent) :
    Collected (s.withCollection (s.key n)) n (s.store.collection (s.key n)).2 := by
  have hcurrent := Store.current_collection s.store (s.key n)
  obtain ⟨c, hc, hw, -⟩ := (State.coherent_withCollection hs (s.key n)).current _ _ hcurrent
  exact ⟨⟨c, hc, hw⟩, fun _ => hcurrent⟩

@[simp] theorem keeps_change {Q : Except Fault Unit → History → State → Prop} {id : Nat}
    {f : Collection → Collection × Delta} :
    (change id f).Keeps (conduct i) Q h s ↔ Q (.ok ()) h (s.withChange id f) := by
  rw [change, keeps_modify, conduct_write, true_and]
  rfl

theorem keeps_notify {Q : Except Fault Unit → History → State → Prop} {notice : Notice}
    (hQ : ∀ s', s'.core = s.core → Q (.ok ()) h s') : (notify notice).Keeps (conduct i) Q h s := by
  rw [notify]
  simp only [keeps_bind, keeps_state, next_ok]
  split
  · rw [keeps_modify, conduct_write, true_and]
    exact hQ _ rfl
  · rw [keeps_log, conduct_write, true_and]
    exact hQ _ rfl

theorem keeps_failed {Q : Except Fault CheckResult → History → State → Prop} {f : Failure}
    {cause : Option FaultClass}
    (hQ : ∀ r s', r.ok = false → s'.core = s.core → Q (.ok r) h s') :
    (failed n f cause).Keeps (conduct i) Q h s := by
  have hend : ∀ (r : CheckResult) s', r.ok = false → s'.core = s.core →
      (pure r : Op CheckResult).Keeps (conduct i) Q h s' := by
    intro r s' hr hs'
    rw [keeps_pure]
    exact hQ r s' hr hs'
  rw [failed]
  simp only [keeps_bind, keeps_workspace, next_ok, keeps_log, conduct_write, true_and]
  split
  · rw [keeps_bind]
    refine keeps_notify fun s' hs' => ?_
    rw [next_ok]
    exact hend _ s' rfl hs'
  · exact hend _ _ rfl rfl

theorem keeps_contained {Q : Except Fault (Except CheckResult RunResult) → History → State → Prop}
    {Q₀ : Except Fault RunResult → History → State → Prop} {subject : String} {call : Op RunResult}
    (hcall : call.Keeps (conduct i) Q₀ h s)
    (hok : ∀ run h' s', Q₀ (.ok run) h' s' → Q (.ok (.ok run)) h' s')
    (herror : ∀ e h' s', Q₀ (.error e) h' s' → ∀ r s'', r.ok = false → s''.core = s'.core →
      Q (.ok (.error r)) h' s'') :
    (contained n subject call).Keeps (conduct i) Q h s := by
  rw [contained]
  simp only [keeps_bind, Op.keeps_attempt]
  refine hcall.mono fun r h' s' hr => ?_
  rw [next_ok]
  split
  · rw [keeps_pure]
    exact hok _ h' s' hr
  · rw [keeps_bind]
    refine keeps_failed fun r s'' hfalse hcore => ?_
    rw [next_ok, keeps_pure]
    exact herror _ h' s' hr r s'' hfalse hcore
  · simp only [keeps_bind, keeps_log, conduct_write, true_and, next_ok, keeps_workspace, keeps_pure]
    exact herror _ h' s' hr _ _ rfl rfl

/-- Results are thrown away if and only if the registration has been removed. -/
theorem keeps_isStale {Q : Except Fault Bool → History → State → Prop} {id : Nat}
    (hs : s.Coherent) (hid : Collected s n id) :
    (isStale n id).Keeps (conduct i) Q h s ↔ Q (.ok (s.isRemoved n)) h s := by
  have hstale : (((s.store.at? id).map Collection.disposed).getD true || s.isRemoved n) =
      s.isRemoved n := by
    cases hr : s.isRemoved n with
    | true => simp
    | false =>
      obtain ⟨c, hc, -, hd⟩ := hs.current _ _ (hid.current hr)
      simp [hc, hd]
  rw [isStale]
  simp only [keeps_bind, keeps_state, next_ok, keeps_pure]
  exact iff_of_eq (congrArg (fun b => Q (.ok b) h s) hstale)

/-! ## Whole workspaces -/

theorem ne_nil_of_diagnosticsByFile {w : World} {found : List Finding}
    {files : Assoc String (List Diagnostic)} (hfiles : w.diagnosticsByFile found = .ok files) :
    ∀ e ∈ files.entries, e.2 ≠ [] := by
  simp only [World.diagnosticsByFile, bind, Except.bind] at hfiles
  split at hfiles
  · exact absurd hfiles (by simp)
  · cases hfiles
    exact fun e he => Assoc.group_ne_nil he

/-- A file whose diagnostics cannot be filed has a path that cannot be resolved. -/
theorem exists_of_diagnosticsByFile {w : World} {found : List Finding} {e : Fault}
    (hfiles : w.diagnosticsByFile found = .error e) :
    ∃ f ∈ found, w.resolve (Path.ofString f.file) = .error e := by
  simp only [World.diagnosticsByFile, bind, Except.bind] at hfiles
  split at hfiles
  · next hfiled =>
    cases hfiles
    obtain ⟨f, hf, hpath⟩ := Daemon.exists_of_mapM_error hfiled
    refine ⟨f, hf, ?_⟩
    simp only [World.documentPath, bind, Except.bind] at hpath
    generalize w.resolve (Path.ofString f.file) = resolved at hpath ⊢
    cases resolved with
    | error e => simpa using hpath
    | ok p => exact absurd hpath (by simp [pure, Except.pure])
  · exact absurd hfiles (by simp [pure, Except.pure])

/-- There are as many diagnostics as findings. -/
theorem length_of_diagnosticsByFile {w : World} {found : List Finding}
    {files : Assoc String (List Diagnostic)} (hfiles : w.diagnosticsByFile found = .ok files) :
    files.values.flatten.length = found.length := by
  simp only [World.diagnosticsByFile, bind, Except.bind] at hfiles
  split at hfiles
  · exact absurd hfiles (by simp)
  · next filed hfiled =>
    cases hfiles
    rw [Assoc.length_flatten_group]
    exact (mapM_eq_ok_iff.1 hfiled).length_eq.symm

/-- If there was nothing to check the report is taken as empty. -/
theorem stdout_judge (command : String) (ended : Ended) :
    (RunResult.judge command ended).stdout = ended.stdout ∨
      Output.parse (RunResult.judge command ended).stdout = .ok [] := by
  simp only [RunResult.judge]
  split
  · exact .inr rfl
  · exact .inl rfl

theorem parse_of_judge_error {command : String} {ended : Ended} {count : Text.TooManyDigits}
    (hparse : Output.parse (RunResult.judge command ended).stdout = .error count) :
    Output.parse ended.stdout = .error count := by
  rcases stdout_judge command ended with hsame | hempty
  · rwa [hsame] at hparse
  · exact absurd (hempty.symm.trans hparse) (by simp)

theorem parse_of_judge_ok {command : String} {ended : Ended} {found : List Finding} {f : Finding}
    (hparse : Output.parse (RunResult.judge command ended).stdout = .ok found) (hf : f ∈ found) :
    Output.parse ended.stdout = .ok found := by
  rcases stdout_judge command ended with hsame | hempty
  · rwa [hsame] at hparse
  · obtain rfl : [] = found := Except.ok.inj (hempty.symm.trans hparse)
    exact absurd hf (by simp)

theorem isCheck_of_isWhole (hwhole : q.isWhole = true) : q.isCheck = true := by
  rw [Request.isCheck, hwhole, Bool.true_or]

theorem logged_withChange (s : State) (id : Nat) (f : Collection → Collection × Delta)
    (r : LogRecord) : s.world.Logged ((s.withChange id f).record r).world := by
  refine ⟨(s.store.change id f).2.2.log ++ [r], ?_⟩
  rw [List.foldl_append]
  rfl

/-- What a check of a whole workspace says about the last run of the checker is enough, if no
earlier one has done its work. -/
theorem reported_of_latest {ended : Ended} {reply : Except Fault Reply}
    (hanswer : h.answer? = some (.ok ended)) (hlatest : h.Latest ended)
    (hreply : ∀ found, Output.parse (RunResult.judge "run" ended).stdout = .ok found →
      (∀ f ∈ found, ∃ p, s.world.resolve (Path.ofString f.file) = .ok p) →
      ∃ r, reply = .ok (.checked r) ∧ r.ok = true ∧ r.skipped = false ∧
        r.outcome = some (RunResult.judge "run" ended).outcome ∧ r.diagnostics = found.length) :
    h.Reported s reply := by
  intro _ _ _ d hd hrun ended' hd' hsuccess
  obtain rfl := hlatest d hd hrun ended' hd' hsuccess
  exact ⟨hanswer, hreply⟩

theorem keeps_install (hw : h.Working s q n l) (hwhole : q.isWhole = true) {id : Nat}
    (hid : Collected s n id) {ended : Ended} (hanswer : h.answer? = some (.ok ended))
    (hlatest : h.Latest ended) :
    (install n id (.judge "run" ended)).Keeps (conduct i) (fun r h' s' => h'.Concluded s' l r)
      h s := by
  rw [install]
  simp only [keeps_bind, findings, keeps_look]
  cases hparse : Output.parse (RunResult.judge "run" ended).stdout with
  | error count =>
    refine (next_error _ _ _).2 (concluded_of_excuse hw ?_ rfl
      (.numeral (isCheck_of_isWhole hwhole) hanswer (parse_of_judge_error hparse) rfl))
    exact reported_of_latest hanswer hlatest fun _ hfound =>
      absurd (hparse.symm.trans hfound) (by simp)
  | ok found =>
    simp only [mapError_ok, next_ok, keeps_bind, keeps_look]
    cases hfiles : s.world.diagnosticsByFile found with
    | error e =>
      obtain ⟨f, hf, hpath⟩ := exists_of_diagnosticsByFile hfiles
      refine (next_error _ _ _).2 (concluded_of_excuse hw ?_ (Daemon.isFailure_of_resolve hpath)
        (.path hwhole hanswer (parse_of_judge_ok hparse hf) hf hpath))
      refine reported_of_latest hanswer hlatest fun found' hfound' hresolves => ?_
      obtain rfl := Except.ok.inj (hparse.symm.trans hfound')
      obtain ⟨p, hp⟩ := hresolves f hf
      exact absurd (hpath.symm.trans hp) (by simp)
    | ok files =>
      -- the result is the same whether the diagnostics are filed or thrown away
      have hreported : ∀ s', h.Reported s' (.ok (.checked
          { workspace := s.key n, ok := true,
            outcome := some (RunResult.judge "run" ended).outcome,
            diagnostics := files.values.flatten.length })) := by
        intro s'
        refine reported_of_latest hanswer hlatest fun found' hfound' _ => ?_
        obtain rfl := Except.ok.inj (hparse.symm.trans hfound')
        exact ⟨_, rfl, rfl, rfl, rfl, length_of_diagnosticsByFile hfiles⟩
      simp only [next_ok, keeps_bind, keeps_workspace, keeps_isStale hw.calm.coherent hid]
      split
      · next hremoved =>
        simp only [keeps_bind, keeps_log, conduct_write, true_and, next_ok, keeps_pure]
        exact concluded_stale (hw.core (State.core_record s _)) hremoved (hreported _) rfl
      · next hremoved =>
        simp only [keeps_bind, keeps_change, next_ok, keeps_log, conduct_write, true_and,
          keeps_pure]
        refine concluded_change hw (hreported _) rfl rfl hid
          (fun c => Collection.apply_workspace c _ _)
          (.inl (by simpa using hremoved)) rfl (fun c hd _ => ?_) ?_ fun c hd _ => ?_
        · have hne := ne_nil_of_diagnosticsByFile hfiles
          refine ⟨_, Collection.replaced_replaceFiles hd hne, fun h => absurd h (by simp),
            fun _ => ?_⟩
          exact ⟨ended, found, files, s.world, hanswer, rfl, hparse, hfiles,
            logged_withChange s id _ _, rfl⟩
        · intro c document _ hdocument
          rw [document?_of_isWhole hwhole] at hdocument
          exact absurd hdocument (by simp)
        · have hreplaced := Collection.replaced_replaceFiles hd (ne_nil_of_diagnosticsByFile hfiles)
          exact counts_of_isWhole hwhole (hreplaced.length_under .file)

/-- The rule for the processes of a check: they come from settings in force, and the first one is
worked out from those of its start. -/
def firstRule (q : Request) (n : Nat) (ds : List Dealing) (s : State) (c : Call) : Prop :=
  (ds = [] → q.First n s c) ∧ Daemon.sourcedRule n ds s c

theorem open_firstRule (q : Request) (n : Nat) (d : Dealing) (ds : List Dealing) :
    Daemon.Open n (firstRule q n) (d :: ds) := by
  intro ds' hds' s c hsourced
  refine ⟨fun hnil => ?_, hsourced⟩
  rw [hnil] at hds'
  exact absurd (List.suffix_nil.1 hds') (by simp)

theorem first_of_ruled {ds : List Dealing} (hruled : Daemon.Ruled (firstRule q n) ds)
    (hne : ds ≠ []) : ∃ later d, ds = later ++ [d] ∧ q.First n d.state d.call := by
  induction ds with
  | nil => exact absurd rfl hne
  | cons d ds ih =>
    cases ds with
    | nil => exact ⟨[], d, rfl, hruled.1.1 rfl⟩
    | cons d' ds =>
      obtain ⟨later, first, hds, hfirst⟩ := ih hruled.2 (by simp)
      exact ⟨d :: later, first, by rw [hds]; rfl, hfirst⟩

/-- A check that keeps to the rule runs well. -/
theorem wellRun_of_firstRule (hin : h.Inside s q n l) {h' : History} {ds : List Dealing} {c : Call}
    (hext : h.Extends ds h') (hruled : Daemon.Ruled (firstRule q n) ds)
    (hc : firstRule q n ds s' c) : WellRun (⟨i, .spawned c, s'⟩ :: h') := by
  intro _
  have hcalls : calls (⟨i, .spawned c, s'⟩ :: h') =
      (c, s') :: ((ds.map fun d => (d.call, d.state)) ++ h.calls) := by
    rw [← hext.calls]
    rfl
  have hrequest : request? (⟨i, .spawned c, s'⟩ :: h') = some q := hext.request.trans hin.request
  have hsubject : subject? (⟨i, .spawned c, s'⟩ :: h') = some n :=
    (hext.subject hin.began).trans hin.subject
  refine ⟨q, n, h.calls, hrequest, hsubject, hin.stops, hin.restart, .inr ?_⟩
  rw [hcalls]
  cases ds with
  | nil => exact ⟨[], (c, s'), rfl, hc.1 rfl⟩
  | cons d ds =>
    obtain ⟨later, first, hds, hfirst⟩ := first_of_ruled hruled (by simp)
    refine ⟨(c, s') :: later.map fun d => (d.call, d.state), (first.call, first.state), ?_, hfirst⟩
    rw [hds]
    simp

/-- Nothing was checked, and the diagnostics of all files have been cleared. -/
theorem concluded_disabled (hin : h.Inside s q n l) (hwhole : q.isWhole = true) {id : Nat}
    (hid : Collected s n id) (r : LogRecord) :
    h.Concluded ((s.record r).withChange id (·.clear .files)) l
      (.ok { workspace := s.key n, ok := true, skipped := true }) := by
  have hcore := State.core_record s r
  refine concluded_change (hin.toWorking.core hcore) (reported_of_vain hin.vain) rfl rfl
    (hid.core hcore) (fun c => Collection.apply_workspace c _ _)
    (.inr fun c => Collection.subset_of_clear c .files) rfl (fun c hd _ => ?_) ?_
    fun _ _ h => absurd h (by simp)
  · exact ⟨[], Collection.replaced_clear_files hd, fun _ => rfl, fun h => absurd h (by simp)⟩
  · intro c document _ hdocument
    rw [document?_of_isWhole hwhole] at hdocument
    exact absurd hdocument (by simp)

/-- What a call of the checker comes to: an answer comes from its last process, and all processes
of a check of a whole workspace before that one were in vain. -/
structure Yields (q : Request) (command : String) (r : Except Fault RunResult)
    (ds : List Dealing) : Prop where
  ok : ∀ run, r = .ok run → ∃ d ended ds', ds = d :: ds' ∧ d.answer = .ok ended ∧
    run = .judge command ended ∧ (q.isWhole = true → ∀ d ∈ ds', Daemon.Vain d)
  error : ∀ e, r = .error e → q.isWhole = true → ∀ d ∈ ds, Daemon.Vain d

theorem yields_error {command : String} {e : Fault} {ds : List Dealing}
    (hvain : q.isWhole = true → ∀ d ∈ ds, Daemon.Vain d) : Yields q command (.error e) ds :=
  ⟨fun _ h => absurd h (by simp), fun _ _ => hvain⟩

theorem yields_ok {command : String} {d : Dealing} {ds : List Dealing} {ended : Ended}
    (hd : d.answer = .ok ended) (hvain : q.isWhole = true → ∀ d ∈ ds, Daemon.Vain d) :
    Yields q command (.ok (.judge command ended)) (d :: ds) := by
  refine ⟨?_, fun _ h => absurd h (by simp)⟩
  rintro _ ⟨⟩
  exact ⟨d, ended, ds, rfl, hd, rfl, hvain⟩

/-- The checker has been called inside the lock. -/
structure Returned (s : State) (q : Request) (n l : Nat) (command : String)
    (r : Except Fault RunResult) (h' : History) (s' : State) : Prop where
  working : h'.Working s' q n l
  onward : s.Onward s'
  answer : ∀ run, r = .ok run → ∃ ended, run = .judge command ended ∧
    h'.answer? = some (.ok ended) ∧ (q.isWhole = true → h'.Latest ended)
  vain : ∀ e, r = .error e → q.isWhole = true → ∀ d ∈ h'.dealings, Daemon.Vain d

theorem keeps_returned (hin : h.Inside s q n l) (command : String) {p : Op RunResult}
    (hp : p.Keeps (Daemon.calls (firstRule q n)) (fun r ds _ => Yields q command r ds) [] s) :
    p.Keeps (conduct i) (Returned s q n l command) h s := by
  refine (keeps_of_calls hp hin.calm fun ds h' s' c hext hruled hc =>
    ⟨wellRun_of_firstRule hin hext hruled hc, hext.sourced hin.began hin.subject hc.2⟩).mono
    fun r h' s' hr => ?_
  obtain ⟨ds, ⟨hext, -, hon, hcalm, -⟩, hyields⟩ := hr
  -- what was done inside the lock before this call was to stop the daemon
  have hvain : ∀ ds', (∀ d ∈ ds', Daemon.Vain d) → ∀ d ∈ ds' ++ h.dealings, Daemon.Vain d := by
    intro ds' hds' d hd
    exact (List.mem_append.1 hd).elim (hds' d) (hin.vain d)
  refine ⟨⟨hcalm, hext.request.trans hin.request, hin.isCheck,
    (hext.subject hin.began).trans hin.subject, hext.holding.trans hin.holding,
    hext.entered.trans hin.entered, Nat.lt_of_lt_of_le hin.known hon.1.length⟩, hon,
    fun run hrun => ?_, fun e he hwhole => ?_⟩
  · obtain ⟨d, ended, ds', rfl, hd, rfl, hbefore⟩ := hyields.ok run hrun
    refine ⟨ended, rfl, by rw [hext.answer]; exact congrArg some hd, fun hwhole => ?_⟩
    refine latest_cons hext.dealings hd (hvain ds' (hbefore hwhole))
  · rw [hext.dealings]
    exact hvain ds (hyields.error e he hwhole)

/-- A check of a whole workspace, inside the lock. -/
theorem keeps_checkHolding (hin : h.Inside s q n l) (hwhole : q.isWhole = true)
    (hlive : s.isRemoved n = false ∨ h.Outlives s (s.key n)) :
    (checkHolding n).Keeps (conduct i) (fun r h' s' => h'.Concluded s' l r) h s := by
  have hin' := hin.withCollection hlive
  have hid := collected (n := n) hin.calm.coherent
  rw [checkHolding]
  simp only [keeps_bind, keeps_collection, next_ok, keeps_workspace]
  generalize (s.store.collection (s.key n)).2 = id at hid ⊢
  generalize s.withCollection (s.key n) = s₁ at hin' hid ⊢
  split
  · simp only [keeps_bind, keeps_log, conduct_write, true_and, next_ok, keeps_change, keeps_pure]
    exact concluded_disabled hin' hwhole hid _
  · simp only [keeps_bind, keeps_log, conduct_write, true_and, next_ok]
    generalize hs₂ : s₁.record _ = s₂
    have hcore : s₂.core = s₁.core := by
      rw [← hs₂]
      rfl
    have hin₂ := hin'.core hcore
    have hid₂ := hid.core hcore
    rw [← State.workspace_of_core hcore n]
    refine keeps_contained (keeps_returned hin₂ "run" ?_) ?_ ?_
    · simp only [keeps_bind, keeps_look]
      cases hargs : (s₂.workspace n).runArgs s₂.world with
      | error e =>
        rw [next_error]
        exact yields_error fun _ => by simp
      | ok args =>
        rw [next_ok]
        refine Daemon.keeps_run (.inr hargs) (fun s' c hc => ⟨fun _ => ?_, hc.sourced (.inr hargs)⟩)
          (fun d => open_firstRule q n d []) (fun d ended ds' s' hd hvain => ?_)
          fun e ds' s' hvain => ?_
        · rw [Request.First, if_pos hwhole]
          exact ⟨s₂, args, hc.core, hargs, hc⟩
        · exact yields_ok hd fun _ => hvain.forall
        · exact yields_error fun _ => hvain.forall
    · intro run h' s' hr
      obtain ⟨ended, rfl, hanswer, hlatest⟩ := hr.answer run rfl
      rw [next_ok]
      exact keeps_install hr.working hwhole (hid₂.onward hin₂.known hr.onward) hanswer
        (hlatest hwhole)
    · intro e h' s' hr r s'' hfalse hcore'
      rw [next_ok, keeps_pure]
      exact concluded_of_failed (hr.working.core hcore')
        (reported_of_vain (hr.vain e rfl hwhole)) hfalse

/-! ## Fragments -/

theorem keeps_logs {Q : Except Fault Unit → History → State → Prop} (texts : List Dropped)
    (hQ : ∀ s', s'.core = s.core → Q (.ok ()) h s') :
    (texts.forM fun d => log .debug .remap d.text : Op Unit).Keeps (conduct i) Q h s := by
  induction texts generalizing s with
  | nil => exact (keeps_pure ()).2 (hQ s rfl)
  | cons d texts ih =>
    rw [List.forM, keeps_bind, keeps_log, conduct_write, true_and, next_ok]
    exact ih fun s' hs' => hQ s' (hs'.trans (State.core_record s _))

theorem keeps_rebase {Q : Except Fault (Assoc Int (List Diagnostic)) → History → State → Prop}
    (map : LineMap) (found : List Finding)
    (hQ : ∀ s', s'.core = s.core → Q (.ok ((Rebased.group (map.rebaseAll found)).mapValues
      fun fs => fs.map Diagnostic.ofFinding)) h s') :
    (rebase map found).Keeps (conduct i) Q h s := by
  rw [rebase, keeps_bind]
  refine keeps_logs _ fun s' hs' => ?_
  rw [next_ok, keeps_pure]
  exact hQ s' hs'

theorem isCheck_of_document? {document : String} (hq : q.document? = some document) :
    q.isCheck = true := by
  simp [Request.isCheck, hq]

theorem isFailure_of_targets {cells : List Cell} {language : String} {e : Fault}
    (h : Cell.targets cells language = .error e) : Daemon.isFailure e = false := by
  obtain ⟨c, -, hc⟩ := Daemon.exists_of_mapM_error h
  rw [Cell.toFragment] at hc
  split at hc
  · exact absurd hc (by simp)
  · cases hc
    exact Daemon.isFailure_misuse _

theorem isWhole_of_document? {document : String} (hq : q.document? = some document) :
    q.isWhole = false := by
  cases q with
  | notebook => rfl
  | fragments => rfl
  | _ => exact absurd hq (by simp [Request.document?])

theorem counts_of_document? {document : String} {r : CheckResult}
    {before after : List (DocumentKey × List Diagnostic)} (hq : q.document? = some document)
    (hcount : ¬ q.Obstructed document r before →
      r.diagnostics = (Collection.under (DocumentKey.isFragmentOf document) after).length)
    (hzero : q.Obstructed document r before → r.diagnostics = 0) : q.Counts r before after where
  whole hwhole := by
    rw [isWhole_of_document? hq] at hwhole
    exact absurd hwhole (by simp)
  fragments document' hq' := by
    obtain rfl : document = document' := Option.some.inj (hq.symm.trans hq')
    exact hcount
  obstructed document' hq' := by
    obtain rfl : document = document' := Option.some.inj (hq.symm.trans hq')
    exact hzero

/-- A check of fragments owes nothing to a run of the checker. -/
theorem reported_of_document? {document : String} {reply : Except Fault Reply}
    (hw : h.Working s q n l) (hq : q.document? = some document) : h.Reported s' reply :=
  reported_of_not_whole hw.request (isWhole_of_document? hq)

/-- Nothing was checked, and the diagnostics that go by the name of the document have been
cleared. -/
theorem concluded_cleared (hw : h.Working s q n l) {document : String}
    (hq : q.document? = some document) {id : Nat} (hid : Collected s n id)
    {r : CheckResult} (hok : r.ok = true) (hr : r.workspace = s.key n) (hzero : r.diagnostics = 0)
    (hcleared : q.Cleared r) (hshown : Request.FragmentsShown h.answer? q document r []) :
    h.Concluded (s.withChange id (·.clear (.document document))) l (.ok r) := by
  refine concluded_change hw (reported_of_document? hw hq) hok hr hid
    (fun c => Collection.apply_workspace c _ _) (.inr fun c => Collection.subset_of_clear c _) rfl
    (fun c _ hwhole => ?_) (fun c document' hd hq' => ?_) fun c hd _ => ?_
  · rw [isWhole_of_document? hq] at hwhole
    exact absurd hwhole (by simp)
  · obtain rfl : document = document' := Option.some.inj (hq.symm.trans hq')
    refine ⟨fun hfile => Collection.entries_clear_file hd hfile.2, fun hfile => ?_⟩
    refine ⟨[], Collection.replaced_clear_document hd fun e he heq => ?_, hshown⟩
    exact hfile ⟨hcleared, e, he, heq⟩
  · refine counts_of_document? hq (fun hfile => ?_) fun _ => hzero
    have hreplaced := Collection.replaced_clear_document hd fun e he heq =>
      hfile ⟨hcleared, e, he, heq⟩
    exact hzero.trans (congrArg List.length hreplaced.under_eq).symm

/-- What has been found in fragments is filed under the document. -/
theorem concluded_fragments (hw : h.Working s q n l) (hremoved : s.isRemoved n = false)
    {document : String} (hdocument : q.document? = some document) {id : Nat} {r : CheckResult}
    (hid : Collected s n id) (hok : r.ok = true) (hr : r.workspace = s.key n)
    (hcleared : ¬ q.Cleared r) (groups : List Rebased)
    (hcount : r.diagnostics = ((Rebased.group groups).mapValues fun fs =>
      fs.map Diagnostic.ofFinding).values.flatten.length)
    (hshown : Request.FragmentsShown h.answer? q document r
      ((Rebased.group groups).entries.map fun e =>
        (.fragment document e.1, e.2.map Diagnostic.ofFinding))) :
    h.Concluded (s.withChange id (·.replaceFragments document
      ((Rebased.group groups).mapValues fun fs => fs.map Diagnostic.ofFinding))) l (.ok r) := by
  have hne : ∀ e ∈ ((Rebased.group groups).mapValues fun fs =>
      fs.map Diagnostic.ofFinding).entries, e.2 ≠ [] := by
    intro e he
    obtain ⟨e', he', rfl⟩ := List.mem_map.1 he
    simpa using Assoc.group_ne_nil he'
  refine concluded_change hw (reported_of_document? hw hdocument) hok hr hid
    (fun c => Collection.apply_workspace c _ _) (.inl hremoved) rfl (fun c _ hwhole => ?_)
    (fun c document' hd hq' => ?_) fun c hd _ => ?_
  · rw [isWhole_of_document? hdocument] at hwhole
    exact absurd hwhole (by simp)
  · obtain rfl : document = document' := Option.some.inj (hdocument.symm.trans hq')
    refine ⟨fun hfile => absurd hfile.1 hcleared, fun _ => ?_⟩
    refine ⟨_, Collection.replaced_replaceFragments hd document hne, ?_⟩
    simpa [Assoc.mapValues, Function.comp_def] using hshown
  · refine counts_of_document? hdocument (fun _ => ?_) fun hfile => absurd hfile.1 hcleared
    have hreplaced := Collection.replaced_replaceFragments hd document hne
    exact hcount.trans (hreplaced.length_under (.fragment document))

/-- What the checker has written about fragments is filed, unless it is to be thrown away. -/
theorem keeps_installFragments {document : String} {ws : Workspace} {targets : List Fragment}
    (hw : h.Working s q n l) (hdocument : q.document? = some document) {id : Nat}
    (hid : Collected s n id) (hws : ws.key = s.key n) {ended : Ended}
    (hanswer : h.answer? = some (.ok ended))
    (htargets : Cell.targets q.cells q.language = .ok targets)
    (hsize : (Buffer.ofFragments targets q.language).map.size ≠ 0) :
    (do
      let found ← findings (RunResult.judge "-c" ended).stdout
      let fragments ← rebase (Buffer.ofFragments targets q.language).map found
      let count := fragments.values.flatten.length
      if ← isStale n id then
        log .debug .coordinator ("Discarding results for removed workspace " ++ ws.root.text)
      else change id (·.replaceFragments document fragments)
      return {
        workspace := ws.key, ok := true, outcome := some (RunResult.judge "-c" ended).outcome,
        diagnostics := count } : Op CheckResult).Keeps (conduct i)
      (fun r h' s' => h'.Concluded s' l r) h s := by
  simp only [keeps_bind, findings, keeps_look]
  cases hparse : Output.parse (RunResult.judge "-c" ended).stdout with
  | error count =>
    exact (next_error _ _ _).2 (concluded_of_excuse hw (reported_of_document? hw hdocument) rfl
      (.numeral (isCheck_of_document? hdocument) hanswer (parse_of_judge_error hparse) rfl))
  | ok found =>
    simp only [mapError_ok, next_ok, keeps_bind]
    refine keeps_rebase _ found fun s' hs' => ?_
    have hw' := hw.core hs'
    have hid' := hid.core hs'
    rw [← State.key_of_core hs'] at hws
    simp only [next_ok, keeps_bind, keeps_isStale hw'.calm.coherent hid']
    split
    · next hremoved =>
      simp only [keeps_bind, keeps_log, conduct_write, true_and, next_ok, keeps_pure]
      exact concluded_stale (hw'.core (State.core_record s' _)) hremoved
        (reported_of_document? hw' hdocument) hws
    · next hremoved =>
      simp only [keeps_bind, keeps_change, next_ok, keeps_pure]
      refine concluded_fragments hw' (by simpa using hremoved) hdocument hid' rfl hws ?_ _ rfl
        ⟨fun h => absurd h (by simp), fun _ => ⟨targets, htargets, fun h => absurd h hsize,
          fun _ => ⟨ended, found, hanswer, rfl, hparse, rfl⟩⟩⟩
      rintro (hskipped | ⟨targets', htargets', hzero⟩)
      · exact absurd hskipped (by simp)
      · rw [htargets] at htargets'
        cases htargets'
        exact hsize hzero

/-- A check of fragments, inside the lock. -/
theorem keeps_fragmentsHolding {document : String} {cells : List Cell} {language : String}
    (hin : h.Inside s q n l) (hlive : s.isRemoved n = false)
    (hdocument : q.document? = some document) (hcells : q.cells = cells)
    (hlanguage : q.language = language) :
    (fragmentsHolding n document cells language).Keeps (conduct i)
      (fun r h' s' => h'.Concluded s' l r) h s := by
  have hin' := hin.withCollection (.inl hlive)
  have hid := collected (n := n) hin.calm.coherent
  rw [fragmentsHolding]
  simp only [keeps_bind, keeps_collection, next_ok, keeps_workspace]
  generalize (s.store.collection (s.key n)).2 = id at hid ⊢
  generalize s.withCollection (s.key n) = s₁ at hin' hid ⊢
  split
  · simp only [keeps_bind, next_ok, keeps_change, keeps_pure]
    exact concluded_cleared hin'.toWorking hdocument hid rfl rfl rfl (.inl rfl)
      ⟨fun _ => rfl, fun h => absurd h (by simp)⟩
  · simp only [keeps_bind, keeps_look]
    cases htargets : Cell.targets cells language with
    | error e =>
      rw [next_error]
      subst hcells hlanguage
      exact concluded_of_excuse hin'.toWorking (reported_of_document? hin'.toWorking hdocument)
        (isFailure_of_targets htargets) (.cells htargets)
    | ok targets =>
      simp only [next_ok]
      subst hcells hlanguage
      split
      · next hsize =>
        simp only [keeps_bind, next_ok, keeps_change, keeps_pure]
        refine concluded_cleared hin'.toWorking hdocument hid rfl rfl rfl
          (.inr ⟨targets, htargets, hsize⟩) ⟨fun _ => rfl, fun _ => ?_⟩
        exact ⟨targets, htargets, fun _ => rfl, fun h => absurd hsize h⟩
      · next hsize =>
        simp only [keeps_bind, keeps_log, conduct_write, true_and, next_ok]
        generalize hs₂ : s₁.record _ = s₂
        have hcore : s₂.core = s₁.core := by
          rw [← hs₂]
          rfl
        have hin₂ := hin'.core hcore
        have hid₂ := hid.core hcore
        rw [← State.workspace_of_core hcore n]
        refine keeps_contained (keeps_returned hin₂ "-c" ?_) ?_ ?_
        · simp only [keeps_bind, keeps_look]
          cases hargs : (s₂.workspace n).checkerArgs s₂.world with
          | error e =>
            rw [next_error]
            exact yields_error fun _ => by simp
          | ok args =>
            rw [next_ok]
            refine Daemon.keeps_runDirect (fun front s' c hfront hc =>
              ⟨fun _ => ?_, hc.sourced (.direct hfront hargs rfl) rfl⟩)
              (fun d ended s' hd => ?_) fun e ds' s' _ => ?_
            · rw [Request.First, isWhole_of_document? hdocument, if_neg (by simp)]
              exact ⟨s₂, targets, args, front, hc.core, htargets, hargs, hfront, hc⟩
            · exact yields_ok hd fun _ => by simp
            · refine yields_error fun hwhole => ?_
              rw [isWhole_of_document? hdocument] at hwhole
              exact absurd hwhole (by simp)
        · intro run h' s' hr
          obtain ⟨ended, rfl, hanswer, -⟩ := hr.answer run rfl
          rw [next_ok]
          exact keeps_installFragments hr.working hdocument (hid₂.onward hin₂.known hr.onward)
            (hr.onward.1.key n hin₂.known).symm hanswer htargets hsize
        · intro e h' s' hr r s'' hfalse hcore'
          rw [next_ok, keeps_pure]
          exact concluded_of_failed (hr.working.core hcore')
            (reported_of_document? hr.working hdocument) hfalse

/-! ## Behind the lock -/

/-- A check is on its way to the lock of its workspace. -/
structure Outside (h : History) (s : State) (q : Request) (n : Nat) : Prop where
  calm : h.Calm s
  request : h.request? = some q
  isCheck : q.isCheck = true
  subject : h.subject? = some n
  began : h.began?.isSome = true
  holding : h.holding = none
  reached : h.hasReached = false
  known : n < s.registrations.length

theorem Outside.gentle (hout : Outside h s q n) (hs : s.Gentle s') : Outside h s' q n :=
  { hout with
    calm := hout.calm.gentle hs
    known := Nat.lt_of_lt_of_le hout.known hs.onward.1.length }

theorem Outside.core (hout : Outside h s q n) (hs : s'.core = s.core) : Outside h s' q n :=
  hout.gentle (.of_core hs hout.calm.coherent)

/-- Whoever is given the lock is inside. -/
theorem Outside.inside (hout : Outside h s q n) (s₁ : State) {s₂ : State} (h₂ : s.Onward s₂) :
    Inside (⟨i, .resumed, s₂⟩ :: ⟨i, .entered l, s₁⟩ :: ⟨i, .reached l, s⟩ :: h) s₂ q n l where
  calm := calm_resumed h₂.2
  request := hout.request
  isCheck := hout.isCheck
  subject := by
    obtain ⟨s₀, hs₀⟩ := Option.isSome_iff_exists.1 hout.began
    have hbegan : began? (⟨i, .resumed, s₂⟩ :: ⟨i, .entered l, s₁⟩ :: ⟨i, .reached l, s⟩ :: h) =
        h.began? := by
      simp [began?, hs₀]
    rw [← hout.subject, subject?, subject?, hbegan]
    rfl
  began := rfl
  holding := rfl
  entered := by simp [hasEntered]
  known := Nat.lt_of_lt_of_le hout.known h₂.1.length
  stops x hx := absurd hx (by simp [History.calls])
  restart hne := absurd rfl hne

theorem keeps_lockFor {Q : Except Fault Nat → History → State → Prop} (hout : Outside h s q n)
    (hQ : ∀ l s', Outside h s' q n → s'.lockOf.get? (s'.key n) = some l → Q (.ok l) h s') :
    (lockFor n).Keeps (conduct i) Q h s := by
  rw [lockFor]
  simp only [keeps_bind, keeps_state, next_ok]
  cases hl : s.lockOf.get? (s.workspace n).key with
  | some l => exact (keeps_pure l).2 (hQ l s hout hl)
  | none =>
    simp only [keeps_bind, keeps_modify, conduct_write, true_and, next_ok, keeps_pure]
    have hgentle := State.gentle_insert_lock hout.calm.coherent s.lockCount (s.lockCount + 1) hl
    refine hQ s.lockCount _ (hout.gentle hgentle) ?_
    exact (Assoc.get?_insert _ _ _ _).trans (if_pos rfl)

/-- What conducts itself well inside the lock does so behind the lock. -/
theorem keeps_serialized (hout : Outside h s q n) {check : Op CheckResult}
    (hcheck : ∀ h' s' l, h'.Inside s' q n l → s'.isRemoved n = false → check.Keeps (conduct i)
      (fun r h' s' => h'.Concluded s' l r) h' s') :
    (serialized n check).Keeps (conduct i) (fun r h' s' => h'.Settled s' (r.map .checked)) h s := by
  rw [serialized, keeps_bind]
  refine keeps_lockFor hout fun l s' hout' hl => ?_
  rw [next_ok, keeps_withLock]
  refine ⟨⟨hout'.calm, hout'.holding, hout'.reached, q, n, hout'.request, hout'.isCheck,
    hout'.subject, hout'.known, hl⟩, fun s₁ s₂ _ h₂ => ?_⟩
  have hin := hout'.inside (i := i) (l := l) s₁ h₂
  -- the lock can be given back by whoever has come to a conclusion
  have hleft : ∀ (r : Except Fault CheckResult) h' s', h'.Concluded s' l r →
      (conduct i).unlock h' s' l ∧ Settled ((conduct i).left h' s' l) s' (r.map .checked) :=
    fun r h' s' hc => ⟨⟨hc.steady, hc.holding⟩, hc.settled⟩
  simp only [keeps_bind, keeps_isRemoved, next_ok]
  split
  · next hremoved =>
    simp only [keeps_bind, keeps_workspace, keeps_log, conduct_write, true_and, next_ok, keeps_pure]
    exact hleft _ _ _ (concluded_stale (hin.toWorking.core (State.core_record _ _)) hremoved
      (reported_of_vain hin.vain) rfl)
  · next hremoved => exact (hcheck _ s₂ l hin (by simpa using hremoved)).mono hleft

theorem keeps_workspace (hout : Outside h s q n) (hwhole : q.isWhole = true) :
    (workspace n).Keeps (conduct i) (fun r h' s' => h'.Settled s' (r.map .checked)) h s :=
  keeps_serialized hout fun _ _ _ hin hlive => keeps_checkHolding hin hwhole (.inl hlive)

/-- A daemon is stopped inside the lock. The registration can be removed only while a process is
waited for. -/
theorem keeps_stopInside (hin : h.Inside s q n l) (hrestart : q.isRestart = true)
    (hlive : s.isRemoved n = false) :
    (Daemon.stop n).Keeps (conduct i) (fun r h' s' => h'.Inside s' q n l ∧
      Daemon.Escapes (q.Excuse n h'.answer? s') r ∧
      (s'.isRemoved n = false ∨ h'.Outlives s' (s'.key n))) h s := by
  have hstop : (Daemon.stop n).Keeps (Daemon.calls (Daemon.stopRule n))
      (fun r ds s' => [] <:+ ds ∧
        Daemon.Escapes (Daemon.Unstopped n (Daemon.lastAnswer? ds) s') r) [] s :=
    Daemon.keeps_stop fun _ _ _ _ hc => hc
  have hstops : ∀ ds h', h.Extends ds h' → Daemon.Ruled (Daemon.stopRule n) ds →
      ∀ x ∈ h'.calls, Daemon.IsStop x.1 := by
    intro ds h' hext hruled x hx
    rw [hext.calls, List.mem_append] at hx
    rcases hx with hx | hx
    · obtain ⟨d, hd, rfl⟩ := List.mem_map.1 hx
      exact Daemon.isStop_of_ruled hruled d hd
    · exact hin.stops x hx
  refine (keeps_of_calls hstop hin.calm fun ds h' s' c hext hruled hc =>
    ⟨fun _ => ?_, hext.sourced hin.began hin.subject hc.2⟩).mono fun r h' s' hr => ?_
  · refine ⟨q, n, (c, s') :: h'.calls, hext.request.trans hin.request,
      (hext.subject hin.began).trans hin.subject, ?_, fun _ => hrestart, .inl rfl⟩
    rintro x (_ | ⟨_, hx⟩)
    · exact hc.1
    · exact hstops ds h' hext hruled x hx
  · obtain ⟨ds, ⟨hext, hruled, hon, hcalm, hsame⟩, -, hescapes⟩ := hr
    have hin' : h'.Inside s' q n l :=
      { calm := hcalm
        request := hext.request.trans hin.request
        isCheck := hin.isCheck
        subject := (hext.subject hin.began).trans hin.subject
        began := by rw [hext.began hin.began]; exact hin.began
        holding := hext.holding.trans hin.holding
        entered := hext.entered.trans hin.entered
        known := Nat.lt_of_lt_of_le hin.known hon.1.length
        stops := hstops ds h' hext hruled
        restart := fun _ => hrestart }
    refine ⟨hin', hescapes.imp fun e he => .stop (.inl hrestart) (hext.unstopped he), ?_⟩
    cases hremoved : s'.isRemoved n with
    | false => exact .inl rfl
    | true =>
      refine .inr ⟨q, hin'.request, n, hin'.subject, hrestart, hin'.entered, fun hcalls => ?_,
        hin'.known, hremoved, rfl⟩
      rw [hext.calls, List.append_eq_nil_iff, List.map_eq_nil_iff] at hcalls
      rw [State.isRemoved_of_core (hsame hcalls.1), hlive] at hremoved
      exact absurd hremoved (by simp)

theorem keeps_restart (hout : Outside h s q n) (hwhole : q.isWhole = true)
    (hrestart : q.isRestart = true) :
    (restart n).Keeps (conduct i) (fun r h' s' => h'.Settled s' (r.map .checked)) h s := by
  refine keeps_serialized hout fun h' s' l hin hlive => ?_
  rw [keeps_bind]
  refine (keeps_stopInside hin hrestart hlive).mono fun r h'' s'' hr => ?_
  obtain ⟨hin', hescapes, hlive'⟩ := hr
  cases r with
  | ok stopped => exact (next_ok _ _ _).2 (keeps_checkHolding hin' hwhole hlive')
  | error e =>
    obtain ⟨hfailure, hexcuse⟩ := hescapes e rfl
    exact (next_error _ _ _).2 (concluded_of_excuse hin'.toWorking (reported_of_vain hin'.vain)
      hfailure hexcuse)

theorem keeps_fragments {document : String} {cells : List Cell} {language : String}
    (hout : Outside h s q n) (hdocument : q.document? = some document) (hcells : q.cells = cells)
    (hlanguage : q.language = language) :
    (fragments n document cells language).Keeps (conduct i)
      (fun r h' s' => h'.Settled s' (r.map .checked)) h s :=
  keeps_serialized hout fun _ _ _ hin hlive =>
    keeps_fragmentsHolding hin hlive hdocument hcells hlanguage

end Check

end Overseer
