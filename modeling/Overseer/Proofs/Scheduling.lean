import Overseer.Proofs.Lawful
import Overseer.Proofs.Requests
import Overseer.Proofs.Stations

set_option autoImplicit false

/-! # Every history is lawful

`Locking` says how the locks of a session agree with its history: a lock that is free has no
holder and nobody waits for it, one that is held has a holder who will go on by himself, and
those who wait for it are those who have asked for it and not been given it, in order. Together
with the layout and with everybody's good intentions this makes a chronicle `Sound`. A task that
runs keeps a chronicle sound (`sound_run`), and so does every move (`sound_step`); so all
histories are lawful (`lawful_after`). -/

namespace Overseer

open History

/-! ## Locks -/

/-- The locks of a session agree with its history. -/
structure Locking (place : TaskId → Station) (s : Session Reply) (h : History) : Prop where
  arrivals : ∀ l, h.arrivals l = ((s.lock l).waiting.map Prog.owner).reverse ++ h.entries l
  waiting : ∀ l, ∀ t ∈ (s.lock l).waiting, (h.story t.owner).holding = none
  free : ∀ l, (s.lock l).held = false →
    (s.lock l).waiting = [] ∧ ∀ j, (h.story j).holding ≠ some l
  held : ∀ l, (s.lock l).held = true →
    ∃ j, (h.story j).holding = some l ∧ (place j).isActive = true

namespace Locking

variable {place : TaskId → Station} {s s' : Session Reply} {h : History} {i : TaskId} {l : Nat}
  {t : Task Reply} {st st' : State}

theorem congr (hs : Locking place s h) (hlocks : s'.locks = s.locks) : Locking place s' h := by
  have hlock : ∀ l, s'.lock l = s.lock l := fun l => by rw [Session.lock, hlocks, Session.lock]
  refine ⟨fun l => ?_, fun l => ?_, fun l => ?_, fun l => ?_⟩ <;> rw [hlock]
  · exact hs.arrivals l
  · exact hs.waiting l
  · exact hs.free l
  · exact hs.held l

theorem quiet (hs : Locking place s h) {m : Moment} (hquiet : m.what.isQuiet = true) :
    Locking place s (m :: h) := by
  refine ⟨fun l => ?_, fun l t ht => ?_, fun l hl => ⟨(hs.free l hl).1, fun j => ?_⟩,
    fun l hl => ?_⟩
  · rw [arrivals_cons_of_quiet hquiet, entries_cons_of_quiet hquiet]
    exact hs.arrivals l
  · rw [holding_story_of_quiet hquiet]
    exact hs.waiting l t ht
  · rw [holding_story_of_quiet hquiet]
    exact (hs.free l hl).2 j
  · obtain ⟨j, hj, hactive⟩ := hs.held l hl
    exact ⟨j, by rw [holding_story_of_quiet hquiet, hj], hactive⟩

/-- A task that holds no lock, or will go on by itself, may go elsewhere. -/
theorem move (hs : Locking place s h) {x : Station}
    (hx : x.isActive = true ∨ (h.story i).holding = none) :
    Locking (Function.update place i x) s h := by
  refine ⟨hs.arrivals, hs.waiting, hs.free, fun l hl => ?_⟩
  obtain ⟨j, hj, hactive⟩ := hs.held l hl
  refine ⟨j, hj, ?_⟩
  by_cases hji : j = i
  · subst hji
    rw [Function.update_self]
    rcases hx with hx | hx
    · exact hx
    · rw [hx] at hj
      exact absurd hj (by simp)
  · rw [Function.update_of_ne hji]
    exact hactive

/-- Somebody asks for a lock that is held. -/
theorem await (hs : Locking place s h) (hheld : (s.lock l).held = true) (ht : t.owner = i)
    (hi : (h.story i).holding = none) :
    Locking place (s.await l t) (⟨i, .reached l, st⟩ :: h) := by
  have hlock : ∀ l', (s.await l t).lock l' =
      if l' = l then { s.lock l with waiting := (s.lock l).waiting ++ [t] } else s.lock l' :=
    fun l' => Session.lock_setLock s l l' _
  refine ⟨fun l' => ?_, fun l' t' ht' => ?_, fun l' hl' => ?_, fun l' hl' => ?_⟩
  · rw [arrivals_reached, entries_reached, hs.arrivals, hlock]
    by_cases hl : l' = l
    · subst hl
      simp [ht]
    · rw [if_neg (Ne.symm hl), if_neg hl]
  · rw [holding_story_reached]
    rw [hlock] at ht'
    split at ht'
    · rcases List.mem_append.1 ht' with ht' | ht'
      · exact hs.waiting l t' ht'
      · rw [List.mem_singleton.1 ht', ht]
        exact hi
    · exact hs.waiting l' t' ht'
  · rw [hlock] at hl' ⊢
    split at hl'
    · rw [hheld] at hl'
      exact absurd hl' (by simp)
    · next hl =>
      rw [if_neg hl]
      exact ⟨(hs.free l' hl').1, fun j => by rw [holding_story_reached]; exact (hs.free l' hl').2 j⟩
  · have hl'' : (s.lock l').held = true := by
      rw [hlock] at hl'
      split at hl'
      · next hl => rw [hl, hheld]
      · exact hl'
    obtain ⟨j, hj, hactive⟩ := hs.held l' hl''
    exact ⟨j, by rw [holding_story_reached, hj], hactive⟩

/-- Somebody asks for a lock that is free, and is given it. -/
theorem enter (hs : Locking place s h) (hfree : (s.lock l).held = false)
    (hactive : (place i).isActive = true) (hi : (h.story i).holding = none)
    (hne : ∀ l, ∀ t ∈ (s.lock l).waiting, t.owner ≠ i) :
    Locking place (s.setLock l ⟨true, []⟩) (⟨i, .entered l, st'⟩ :: ⟨i, .reached l, st⟩ :: h) := by
  obtain ⟨hwaiting, -⟩ := hs.free l hfree
  refine ⟨fun l' => ?_, fun l' t' ht' => ?_, fun l' hl' => ?_, fun l' hl' => ?_⟩
  · rw [arrivals_entered, entries_entered, arrivals_reached, entries_reached, hs.arrivals,
      Session.lock_setLock]
    by_cases hl : l' = l
    · subst hl
      simp [hwaiting]
    · rw [if_neg (Ne.symm hl), if_neg (Ne.symm hl), if_neg hl]
  · rw [Session.lock_setLock] at ht'
    split at ht'
    · exact absurd ht' (by simp)
    · rw [holding_story_entered, if_neg (Ne.symm (hne l' t' ht')), holding_story_reached]
      exact hs.waiting l' t' ht'
  · rw [Session.lock_setLock] at hl' ⊢
    split at hl'
    · exact absurd hl' (by simp)
    · next hl =>
      rw [if_neg hl]
      refine ⟨(hs.free l' hl').1, fun j => ?_⟩
      rw [holding_story_entered, holding_story_reached]
      split
      · exact fun h => hl (Option.some.inj h).symm
      · exact (hs.free l' hl').2 j
  · rw [Session.lock_setLock] at hl'
    split at hl'
    · next hl =>
      refine ⟨i, ?_, hactive⟩
      rw [holding_story_entered, if_pos rfl, hl]
    · obtain ⟨j, hj, hactive'⟩ := hs.held l' hl'
      refine ⟨j, ?_, hactive'⟩
      rw [holding_story_entered, if_neg, holding_story_reached, hj]
      rintro rfl
      rw [hi] at hj
      exact absurd hj (by simp)

/-- A lock for which nobody waits is given back. -/
theorem leave (hs : Locking place s h) (hwaiting : (s.lock l).waiting = [])
    (hi : (h.story i).holding = some l) (hone : ∀ j, (h.story j).holding = some l → j = i) :
    Locking place (s.setLock l {}) (⟨i, .left l, st⟩ :: h) := by
  have hholding : ∀ j, (story (⟨i, .left l, st⟩ :: h) j).holding ≠ some l := by
    intro j
    rw [holding_story_left]
    split
    · simp
    · next hij => exact fun hj => hij (hone j hj).symm
  refine ⟨fun l' => ?_, fun l' t' ht' => ?_, fun l' hl' => ?_, fun l' hl' => ?_⟩
  · rw [arrivals_left, entries_left, hs.arrivals, Session.lock_setLock]
    by_cases hl : l' = l
    · rw [if_pos hl, hl, hwaiting]
    · rw [if_neg hl]
  · rw [Session.lock_setLock] at ht'
    rw [holding_story_left]
    split at ht'
    · exact absurd ht' (by simp)
    · split
      · rfl
      · exact hs.waiting l' t' ht'
  · rw [Session.lock_setLock] at hl' ⊢
    by_cases hl : l' = l
    · rw [if_pos hl, hl]
      exact ⟨rfl, hholding⟩
    · rw [if_neg hl] at hl' ⊢
      refine ⟨(hs.free l' hl').1, fun j => ?_⟩
      rw [holding_story_left]
      split
      · simp
      · exact (hs.free l' hl').2 j
  · rw [Session.lock_setLock] at hl'
    split at hl'
    · exact absurd hl' (by simp)
    · next hl =>
      obtain ⟨j, hj, hactive⟩ := hs.held l' hl'
      refine ⟨j, ?_, hactive⟩
      rw [holding_story_left, if_neg, hj]
      rintro rfl
      exact hl (Option.some.inj (hj.symm.trans hi))

/-- A lock is handed over to the first who waits for it. -/
theorem handOver (hs : Locking place s h) {rest : List (Task Reply)}
    (hwaiting : (s.lock l).waiting = t :: rest) (hi : (h.story i).holding = some l)
    (hactive : (place t.owner).isActive = true)
    (hne : ∀ l', ∀ t' ∈ ((s.setLock l ⟨true, rest⟩).lock l').waiting, t'.owner ≠ t.owner) :
    Locking place (s.setLock l ⟨true, rest⟩)
      (⟨t.owner, .entered l, st'⟩ :: ⟨i, .left l, st⟩ :: h) := by
  refine ⟨fun l' => ?_, fun l' t' ht' => ?_, fun l' hl' => ?_, fun l' hl' => ?_⟩
  · rw [arrivals_entered, entries_entered, arrivals_left, entries_left, hs.arrivals,
      Session.lock_setLock]
    by_cases hl : l' = l
    · subst hl
      simp [hwaiting]
    · rw [if_neg (Ne.symm hl), if_neg hl]
  · have hnone : (h.story t'.owner).holding = none := by
      rw [Session.lock_setLock] at ht'
      split at ht'
      · exact hs.waiting l t' (by rw [hwaiting]; exact List.mem_cons_of_mem _ ht')
      · exact hs.waiting l' t' ht'
    rw [holding_story_entered, if_neg (Ne.symm (hne l' t' ht')), holding_story_left]
    split
    · rfl
    · exact hnone
  · rw [Session.lock_setLock] at hl' ⊢
    split at hl'
    · exact absurd hl' (by simp)
    · next hl =>
      rw [if_neg hl]
      refine ⟨(hs.free l' hl').1, fun j => ?_⟩
      rw [holding_story_entered, holding_story_left]
      split
      · exact fun h => hl (Option.some.inj h).symm
      · split
        · simp
        · exact (hs.free l' hl').2 j
  · by_cases hl : l' = l
    · exact ⟨t.owner, by rw [holding_story_entered, if_pos rfl, hl], hactive⟩
    · rw [Session.lock_setLock, if_neg hl] at hl'
      obtain ⟨j, hj, hactive'⟩ := hs.held l' hl'
      refine ⟨j, ?_, hactive'⟩
      have htj : t.owner ≠ j := by
        rintro rfl
        rw [hs.waiting l t (by simp [hwaiting])] at hj
        exact absurd hj (by simp)
      have hij : i ≠ j := by
        rintro rfl
        exact hl (Option.some.inj (hj.symm.trans hi))
      rw [holding_story_entered, if_neg htj, holding_story_left, if_neg hij, hj]

end Locking

/-! ## Sound chronicles -/

/-- Nobody has had this name yet. -/
def Chronicle.IsFresh (c : Chronicle) : TaskId → Prop
  | .host step => c.asked ≤ step
  | .job batch _ => c.session.batches.length ≤ batch

/-- A chronicle while a task runs, or while nobody does. The history is lawful, with the state
at the last wait, the session agrees with the table of where tasks stand, and everybody will go
on well. -/
structure Sound (s₀ b : State) (who : Option TaskId) (place : TaskId → Station) (c : Chronicle) :
    Prop where
  lawful : Lawful s₀ b c.history
  layout : Layout place c.session
  well : ∀ j, (place j).Well b (c.history.story j) j
  running : ∀ j, place j = .running ↔ who = some j
  known : ∀ j, c.history.story j = [] → place j = .nowhere
  fresh : ∀ j, c.IsFresh j → c.history.story j = []

namespace Sound

variable {s₀ b b' : State} {who who' : Option TaskId} {place : TaskId → Station} {c c' : Chronicle}
  {i : TaskId} {m : Moment}

/-- Something happens, and the one who does it may go elsewhere. -/
theorem advance (hs : Sound s₀ b who place c) (hb : b.Onward b')
    (hlawful : Lawful s₀ b' (m :: c.history)) (x : Station)
    (hhistory : c'.history = m :: c.history)
    (hlayout : Layout (Function.update place m.who x) c'.session)
    (hwell : x.Well b' (m :: c.history.story m.who) m.who)
    (hrunning : ∀ j, Function.update place m.who x j = .running ↔ who' = some j)
    (hfresh : ∀ j, c'.IsFresh j → c.IsFresh j ∧ j ≠ m.who) :
    Sound s₀ b' who' (Function.update place m.who x) c' := by
  refine ⟨by rwa [hhistory], hlayout, fun j => ?_, hrunning, fun j hj => ?_, fun j hj => ?_⟩
  · rw [hhistory]
    by_cases hji : j = m.who
    · subst hji
      rw [Function.update_self, story_cons_self]
      exact hwell
    · rw [Function.update_of_ne hji, story_cons_of_ne _ (Ne.symm hji)]
      exact (hs.well j).onward hb
  · rw [hhistory] at hj
    have hji : j ≠ m.who := by
      rintro rfl
      rw [story_cons_self] at hj
      exact absurd hj (by simp)
    rw [story_cons_of_ne _ (Ne.symm hji)] at hj
    rw [Function.update_of_ne hji]
    exact hs.known j hj
  · obtain ⟨hj, hji⟩ := hfresh j hj
    rw [hhistory, story_cons_of_ne _ (Ne.symm hji)]
    exact hs.fresh j hj

/-- Somebody who goes elsewhere without anything to be written down. -/
theorem relocate (hs : Sound s₀ b who place c) (x : Station) (hhistory : c'.history = c.history)
    (hlayout : Layout (Function.update place i x) c'.session)
    (hwell : x.Well b (c.history.story i) i)
    (hrunning : ∀ j, Function.update place i x j = .running ↔ who' = some j)
    (hi : c.history.story i ≠ []) (hfresh : ∀ j, c'.IsFresh j → c.IsFresh j) :
    Sound s₀ b who' (Function.update place i x) c' := by
  refine ⟨by rw [hhistory]; exact hs.lawful, hlayout, fun j => ?_, hrunning, fun j hj => ?_,
    fun j hj => ?_⟩
  · rw [hhistory]
    by_cases hji : j = i
    · subst hji
      rw [Function.update_self]
      exact hwell
    · rw [Function.update_of_ne hji]
      exact hs.well j
  · rw [hhistory] at hj
    rw [Function.update_of_ne]
    · exact hs.known j hj
    · rintro rfl
      exact hi hj
  · rw [hhistory]
    exact hs.fresh j (hfresh j hj)

theorem story_ne_nil (hs : Sound s₀ b who place c) (hi : place i ≠ .nowhere) :
    c.history.story i ≠ [] :=
  fun hnil => hi (hs.known i hnil)

/-- Who has a story is not new. -/
theorem not_fresh (hs : Sound s₀ b who place c) (hi : place i ≠ .nowhere) : ¬ c.IsFresh i :=
  fun hfresh => hs.story_ne_nil hi (hs.fresh i hfresh)

theorem place_running (hs : Sound s₀ b (some i) place c) : place i = .running :=
  (hs.running i).2 rfl

/-- Parts of the session that have nothing to do with where tasks stand may change. -/
theorem onSession (hs : Sound s₀ b who place c) {f : Session Reply → Session Reply}
    (htasks : (f c.session).tasks = c.session.tasks)
    (hlocks : ∀ l, ((f c.session).lock l).waiting = (c.session.lock l).waiting)
    (hheld : (f c.session).held = c.session.held)
    (hcalls : c.session.calls.length ≤ (f c.session).calls.length)
    (hasleep : (f c.session).asleep = c.session.asleep)
    (hpauses : (f c.session).pauses = c.session.pauses)
    (hlength : (f c.session).batches.length = c.session.batches.length)
    (hbatches : ∀ (n : Nat) (x : Batch Reply), (f c.session).batches[n]? = some x →
      x.noted < x.results.length → ∃ y : Batch Reply, c.session.batches[n]? = some y ∧
        y.noted < y.results.length ∧ y.resume = x.resume) :
    Sound s₀ b who place (c.onSession f) := by
  refine ⟨hs.lawful, hs.layout.congr htasks hlocks hheld hcalls hasleep hpauses hbatches, hs.well,
    hs.running, hs.known, fun j hj => hs.fresh j ?_⟩
  cases j with
  | host step => exact hj
  | job batch index => exact Nat.le_trans (Nat.le_of_eq hlength.symm) hj

/-- A running task does something that others need not notice. -/
theorem note (hs : Sound s₀ b (some i) place c) (hb : b.Onward b') {what : Happening}
    (hlawful : Lawful s₀ b' (⟨i, what, c.session.state⟩ :: c.history)) :
    Sound s₀ b' (some i) place (c.note i what) := by
  have hi := hs.place_running
  have hupdate : Function.update place i .running = place := by
    rw [← hi]
    exact Function.update_eq_self i place
  have hnot := hs.not_fresh (i := i) (by simp [hi])
  have hsound : Sound s₀ b' (some i) (Function.update place i .running) (c.note i what) :=
    hs.advance hb hlawful .running rfl (by rw [hupdate]; exact hs.layout) trivial
      (by rw [hupdate]; exact hs.running) fun j hj => ⟨hj, fun hji : j = i => hnot (hji ▸ hj)⟩
  rwa [hupdate] at hsound

/-- A running task stops to run. -/
theorem running_update (hs : Sound s₀ b (some i) place c) {x : Station} (hx : x ≠ .running)
    (j : TaskId) : Function.update place i x j = .running ↔ none = some j := by
  refine ⟨fun hj => ?_, fun hj => absurd hj (by simp)⟩
  by_cases hji : j = i
  · subst hji
    rw [Function.update_self] at hj
    exact absurd hj hx
  · rw [Function.update_of_ne hji] at hj
    exact absurd (Option.some.inj ((hs.running j).1 hj)).symm hji

end Sound

/-! ## Running -/

section Run

variable {s₀ b : State} {place : TaskId → Station} {c : Chronicle} {i : TaskId}

/-- A chronicle at rest: nobody runs, and the state is that of the last wait. -/
def Chronicle.Resting (c : Chronicle) (s₀ : State) : Prop :=
  ∃ place, Sound s₀ c.session.state none place c ∧ Locking place c.session c.history

/-- A chronicle while a task runs. -/
structure Chronicle.Running (c : Chronicle) (s₀ b : State) (i : TaskId)
    (place : TaskId → Station) : Prop where
  sound : Sound s₀ b (some i) place c
  locking : Locking place c.session c.history

namespace Chronicle

theorem story_note (c : Chronicle) (i : TaskId) (what : Happening) :
    (c.note i what).history.story i = ⟨i, what, c.session.state⟩ :: c.history.story i :=
  story_cons_self _ _

theorem Running.coherent (hc : c.Running s₀ b i place) (h₀ : s₀.Coherent) : b.Coherent :=
  hc.sound.lawful.coherent h₀

theorem Running.note (hc : c.Running s₀ b i place) {b' : State} (hb : b.Onward b')
    {what : Happening} (hquiet : what.isQuiet = true)
    (hlawful : Lawful s₀ b' (⟨i, what, c.session.state⟩ :: c.history)) :
    (c.note i what).Running s₀ b' i place :=
  ⟨hc.sound.note hb hlawful, hc.locking.quiet hquiet⟩

/-- Parts of the session that have nothing to do with tasks may change. -/
theorem Running.onSession (hc : c.Running s₀ b i place) {f : Session Reply → Session Reply}
    (hready : (f c.session).ready = c.session.ready)
    (hlocks : (f c.session).locks = c.session.locks)
    (hheld : (f c.session).held = c.session.held)
    (hcalls : c.session.calls.length ≤ (f c.session).calls.length)
    (hasleep : (f c.session).asleep = c.session.asleep)
    (hpauses : (f c.session).pauses = c.session.pauses)
    (hbatches : (f c.session).batches = c.session.batches) :
    (c.onSession f).Running s₀ b i place := by
  refine ⟨hc.sound.onSession ?_ (fun l => ?_) hheld hcalls hasleep hpauses (by rw [hbatches])
    fun n x hx hnoted => ⟨x, by rw [← hbatches, hx], hnoted, rfl⟩, hc.locking.congr hlocks⟩
  · rw [Session.tasks, hready, Session.tasks]
  · rw [Session.lock, hlocks, Session.lock]

/-- A child process has come back at once. -/
theorem Running.answered (hc : c.Running s₀ b i place) (hb : b.Coherent)
    (hcore : c.session.state.core = b.core) (e : Except Fault Ended) :
    (c.answered i e).Running s₀ c.session.state i place := by
  have hreturned : (c.note i (.returned e)).Running s₀ c.session.state i place :=
    hc.note (.of_core hcore hb) rfl (.returned i e hc.sound.lawful hcore)
  exact hreturned.note (.refl (hb.of_core hcore)) rfl (.resumed i hreturned.sound.lawful)

/-- A lock that was free is given at once. -/
theorem Running.enter (hc : c.Running s₀ b i place) (hstart : (c.history.story i).start = b)
    {l : Nat} (hduty : (conduct i).lock (c.history.story i) c.session.state l)
    (hfree : (c.session.lock l).held = false) :
    (c.enter i l).Running s₀ c.session.state i place := by
  have hi := hc.sound.place_running
  have hon : b.Onward c.session.state := hstart ▸ hduty.1.onward
  have hcoherent := hduty.1.coherent
  have hreached := hc.sound.note hon (.reached i l hc.sound.lawful hstart hduty)
  have hnone := hduty.2.1
  have hlocking : Locking place (c.session.setLock l ⟨true, []⟩)
      (⟨i, .entered l, c.session.state⟩ :: ⟨i, .reached l, c.session.state⟩ :: c.history) :=
    hc.locking.enter hfree (by rw [hi]; rfl) hnone fun l' t ht =>
      hc.sound.layout.owner_ne_of_waiting ht (by simp [hi])
  obtain ⟨hwaiting, hnobody⟩ := hc.locking.free l hfree
  have hlocked := hreached.onSession (f := (·.setLock l ⟨true, []⟩)) rfl (fun l' => ?_) rfl
    (Nat.le_refl _) rfl rfl rfl fun n x hx hnoted => ⟨x, hx, hnoted, rfl⟩
  · have hentered := hlocked.note (.refl hcoherent)
      (.entered i l hlocked.lawful (.refl hcoherent) (fun j => ?_) ⟨[], ?_⟩)
    · have hresumed : Sound s₀ c.session.state (some i) place (c.enter i l) :=
        hentered.note (.refl hcoherent) (.resumed i hentered.lawful)
      exact ⟨hresumed, hlocking.quiet rfl⟩
    · show (story (⟨i, .reached l, c.session.state⟩ :: c.history) j).holding ≠ some l
      rw [holding_story_reached]
      exact hnobody j
    · show arrivals (⟨i, .reached l, c.session.state⟩ :: c.history) l = i :: entries _ l
      rw [arrivals_reached, if_pos rfl, hc.locking.arrivals, hwaiting]
      rfl
  · show ((c.session.setLock l ⟨true, []⟩).lock l').waiting = (c.session.lock l').waiting
    rw [Session.lock_setLock]
    split
    · next hl => rw [hl, hwaiting]
    · rfl

/-- A lock is given back, and handed over if somebody waits for it. -/
theorem Running.leave (hc : c.Running s₀ b i place) (h₀ : s₀.Coherent)
    (hstart : (c.history.story i).start = b) {l : Nat}
    (hduty : (conduct i).unlock (c.history.story i) c.session.state l) :
    ∃ place', (c.leave i l).Running s₀ b i place' ∧
      (c.leave i l).history.story i = ⟨i, .left l, c.session.state⟩ :: c.history.story i := by
  have hi := hc.sound.place_running
  have hon : b.Onward c.session.state := hstart ▸ hduty.1.1
  have hone : ∀ j, (c.history.story j).holding = some l → j = i := fun j hj =>
    hc.sound.lawful.holder_unique hj hduty.2
  have hleft := hc.sound.note (.refl (hc.coherent h₀)) (.left i l hc.sound.lawful hstart hduty)
  rw [Chronicle.leave]
  cases hwaiting : (c.session.lock l).waiting with
  | nil =>
    have hfree : c.session.free l = c.session.setLock l {} := by rw [Session.free, hwaiting]
    have hleave : (c.note i (.left l)).onSession (·.free l) =
        (c.note i (.left l)).onSession (·.setLock l {}) := by
      rw [Chronicle.onSession, session_note, hfree]
      rfl
    refine ⟨place, ⟨?_, ?_⟩, story_note c i _⟩
    · simp only [hleave]
      refine hleft.onSession rfl (fun l' => ?_) rfl (Nat.le_refl _) rfl rfl rfl
        fun n x hx hnoted => ⟨x, hx, hnoted, rfl⟩
      rw [session_note, Session.lock_setLock]
      split
      · next hl => rw [hl, hwaiting]
      · rfl
    · simp only [hleave]
      exact hc.locking.leave hwaiting hduty.2 hone
  | cons t rest =>
    have hfree : c.session.free l = (c.session.setLock l ⟨true, rest⟩).enqueue (.task t) := by
      rw [Session.free, hwaiting]
    have hplace : place t.owner = .lock l t := hc.sound.layout.lock l t (by simp [hwaiting])
    have hti : t.owner ≠ i := by
      rintro rfl
      rw [hi] at hplace
      exact absurd hplace (by simp)
    have hnodup : ((c.session.lock l).waiting.map Prog.owner).Nodup := by
      have harrivals := hc.sound.lawful.nodup_arrivals l
      rw [hc.locking.arrivals] at harrivals
      exact (List.reverse_perm _).nodup_iff.1 (List.nodup_append.1 harrivals).1
    have hpop := hc.sound.layout.pop hwaiting hnodup
    have hlayout : Layout (Function.update place t.owner (.queue t)) (c.session.free l) := by
      rw [hfree, ← Function.update_idem .nowhere (.queue t) place]
      exact hpop.enqueue (by simp [Station.isOut]) rfl
    have hwell := hc.sound.well t.owner
    rw [hplace] at hwell
    -- the holder is gone, and the first who has asked comes first
    have hentered : Lawful s₀ b (⟨t.owner, .entered l, c.session.state⟩ ::
        (c.note i (.left l)).history) := by
      refine .entered t.owner l hleft.lawful hon (fun j => ?_)
        ⟨(rest.map Prog.owner).reverse, ?_⟩
      · show (story (⟨i, .left l, c.session.state⟩ :: c.history) j).holding ≠ some l
        rw [holding_story_left]
        split
        · simp
        · next hij => exact fun hj => hij (hone j hj).symm
      · show c.history.arrivals l = _
        rw [hc.locking.arrivals, hwaiting]
        simp [Chronicle.note, entries_left]
    refine ⟨Function.update place t.owner (.queue t), ⟨?_, ?_⟩, ?_⟩
    · refine hleft.advance (m := ⟨t.owner, .entered l, c.session.state⟩)
        (.refl (hc.coherent h₀)) hentered (.queue t) rfl hlayout ?_ (fun j => ?_) fun j hj => ?_
      · refine ⟨hwell.1, fun s hs => ?_⟩
        have hstory : (c.note i (.left l)).history.story t.owner = c.history.story t.owner :=
          story_cons_of_ne _ hti.symm
        rw [hstory]
        exact hwell.2 _ s hon hs
      · by_cases hj : j = t.owner
        · subst hj
          rw [Function.update_self]
          simp [hti.symm]
        · rw [Function.update_of_ne hj]
          exact hc.sound.running j
      · have hold : c.IsFresh j := by
          cases j with
          | host step => exact hj
          | job batch index =>
            have hj' : (c.session.free l).batches.length ≤ batch := hj
            rw [hfree] at hj'
            exact hj'
        exact ⟨hold, fun hjt : j = t.owner =>
          hc.sound.not_fresh (i := t.owner) (by simp [hplace]) (hjt ▸ hold)⟩
    · show Locking _ (c.session.free l) _
      rw [hfree]
      refine Locking.congr (s := c.session.setLock l ⟨true, rest⟩) ?_ rfl
      refine (hc.locking.move (.inl rfl)).handOver hwaiting hduty.2 ?_ fun l' t' ht' => ?_
      · rw [Function.update_self]
        rfl
      · exact hpop.owner_ne_of_waiting ht' (by simp)
    · show story (⟨t.owner, .entered l, c.session.state⟩ :: (c.note i (.left l)).history) i = _
      rw [story_cons_of_ne _ hti, story_note]

/-- A running task waits for a child process. -/
theorem Running.hold (hc : c.Running s₀ b i place) (hb : b.Onward c.session.state) {call : Call}
    {behaviour : Behaviour} {k : Except Fault Ended → Task Reply}
    (hlawful : Lawful s₀ c.session.state (⟨i, .spawned call, c.session.state⟩ :: c.history))
    (hby : ∀ e, (k e).By i)
    (hgo : ∀ e s₁ s₂, c.session.state.Onward s₁ → s₁.Onward s₂ → (k e).GoesOn i
      (⟨i, .resumed, s₂⟩ :: ⟨i, .returned e, s₁⟩ :: ⟨i, .spawned call, c.session.state⟩ ::
        c.history.story i) s₂) :
    ((c.spawned i call).onSession fun s =>
      { s with held := s.held.insert c.session.calls.length ⟨call, behaviour, k⟩ }).Resting s₀ := by
  have hi := hc.sound.place_running
  have hnot := hc.sound.not_fresh (i := i) (by simp [hi])
  refine ⟨Function.update place i (.child c.session.calls.length ⟨call, behaviour, k⟩), ?_, ?_⟩
  · refine hc.sound.advance (m := ⟨i, .spawned call, c.session.state⟩) hb hlawful
      (.child c.session.calls.length ⟨call, behaviour, k⟩) rfl
      (hc.sound.layout.hold (by rw [hi]; rfl) ⟨call, behaviour, k⟩ ?_ rfl rfl rfl rfl rfl rfl)
      ⟨hby, hgo⟩
      (hc.sound.running_update (by simp)) fun j hj => ⟨hj, fun hji : j = i => hnot (hji ▸ hj)⟩
    exact List.length_append
  · exact ((hc.locking.quiet (m := ⟨i, .spawned call, c.session.state⟩) rfl).move (.inl rfl)).congr
      rfl

/-- A running task lies down to sleep. -/
theorem Running.lieDown (hc : c.Running s₀ b i place) (hstart : (c.history.story i).start = b)
    {ms : Int} {t : Task Reply} (hby : t.By i)
    (hduty : (conduct i).sleep (c.history.story i) c.session.state ms)
    (hgo : ∀ s₁, c.session.state.Onward s₁ → t.GoesOn i
      (⟨i, .resumed, s₁⟩ :: ⟨i, .slept ms, c.session.state⟩ :: c.history.story i) s₁) :
    (c.lieDown i ms t).Resting s₀ := by
  have hi := hc.sound.place_running
  have hon : b.Onward c.session.state := hstart ▸ hduty.onward
  have hnot := hc.sound.not_fresh (i := i) (by simp [hi])
  refine ⟨Function.update place i (.asleep c.session.pauses t), ?_, ?_⟩
  · exact hc.sound.advance (m := ⟨i, .slept ms, c.session.state⟩) hon
      (.slept i ms hc.sound.lawful hstart hduty) (.asleep c.session.pauses t) rfl
      (hc.sound.layout.lieDown (by rw [hi]; rfl) hby.owner) ⟨hby, hgo⟩
      (hc.sound.running_update (by simp)) fun j hj => ⟨hj, fun hji : j = i => hnot (hji ▸ hj)⟩
  · exact ((hc.locking.quiet (m := ⟨i, .slept ms, c.session.state⟩) rfl).move (.inl rfl)).congr rfl

/-- A running task waits for a lock. -/
theorem Running.await (hc : c.Running s₀ b i place) (hstart : (c.history.story i).start = b)
    {l : Nat} {t : Task Reply} (hheld : (c.session.lock l).held = true) (hby : t.By i)
    (hduty : (conduct i).lock (c.history.story i) c.session.state l)
    (hgo : ∀ s₁ s₂, c.session.state.Onward s₁ → c.session.state.Onward s₂ → t.GoesOn i
      (⟨i, .resumed, s₂⟩ :: ⟨i, .entered l, s₁⟩ :: ⟨i, .reached l, c.session.state⟩ ::
        c.history.story i) s₂) :
    (c.await i l t).Resting s₀ := by
  have hi := hc.sound.place_running
  have hon : b.Onward c.session.state := hstart ▸ hduty.1.onward
  have hnot := hc.sound.not_fresh (i := i) (by simp [hi])
  refine ⟨Function.update place i (.lock l t), ?_, ?_⟩
  · exact hc.sound.advance (m := ⟨i, .reached l, c.session.state⟩) hon
      (.reached i l hc.sound.lawful hstart hduty) (.lock l t) rfl
      (hc.sound.layout.await (by rw [hi]; rfl) hby.owner l) ⟨hby, hgo⟩
      (hc.sound.running_update (by simp)) fun j hj => ⟨hj, fun hji : j = i => hnot (hji ▸ hj)⟩
  · have hlocking : Locking place (c.session.await l t)
        (⟨i, .reached l, c.session.state⟩ :: c.history) :=
      hc.locking.await hheld hby.owner hduty.2.1
    refine hlocking.move (.inr ?_)
    rw [holding_story_reached]
    exact hduty.2.1

/-- A running task ends. -/
theorem Running.finish (hc : c.Running s₀ b i place) (hstart : (c.history.story i).start = b)
    {f : Finished Reply} (hduty : (c.history.story i).Settled c.session.state f.reply) :
    ((c.note i (.ended f.reply)).onSession (·.finish f)).Resting s₀ := by
  have hi := hc.sound.place_running
  have hon : b.Onward c.session.state := hstart ▸ hduty.steady.1
  have hended : (c.note i (.ended f.reply)).Running s₀ c.session.state i place :=
    hc.note hon rfl (.ended i _ hc.sound.lawful hstart hduty)
  have hstory := hended.sound.story_ne_nil (i := i) (by simp [hi])
  have hlayout := hended.sound.layout.out (i := i) (by rw [hi]; rfl) (x := .nowhere) rfl
  have hout : Sound s₀ c.session.state none (Function.update place i .nowhere)
      (c.note i (.ended f.reply)) :=
    hended.sound.relocate .nowhere rfl hlayout trivial (hended.sound.running_update (by simp))
      hstory fun j hj => hj
  have hlocking := hended.locking.move (i := i) (x := .nowhere) (.inr ?_)
  · refine ⟨Function.update place i .nowhere, ?_⟩
    cases f with
    | host step result =>
      exact ⟨hout.onSession rfl (fun _ => rfl) rfl (Nat.le_refl _) rfl rfl rfl
        fun n x hx hnoted => ⟨x, hx, hnoted, rfl⟩, hlocking.congr rfl⟩
    | job batch index result =>
      refine ⟨hout.onSession ?_ (fun _ => rfl) rfl (Nat.le_refl _) rfl rfl
        (List.length_modify _ _ _) fun n x hx hnoted => ?_, hlocking.congr rfl⟩
      · simp [Session.tasks, Session.finish, Session.enqueue, Ready.task?]
      · replace hx := (List.getElem?_modify _ _ _ _).symm.trans hx
        obtain ⟨y, hy, rfl⟩ := Option.map_eq_some_iff.1 hx
        refine ⟨y, hy, ?_⟩
        by_cases hn : batch = n
        · rw [if_pos hn] at hnoted ⊢
          exact ⟨by simpa using hnoted, rfl⟩
        · rw [if_neg hn] at hnoted ⊢
          exact ⟨hnoted, rfl⟩
  · rw [story_note]
    exact hduty.holding

/-- Somebody new comes into the queue. -/
theorem Resting.begin {c' : Chronicle} (hc : c.Resting s₀) (h₀ : s₀.Coherent) {q : Request}
    {t : Task Reply} (hnew : c.history.story i = [])
    (hknown : q.isKnown c.session.state = true) (hby : t.By i)
    (hgo : ∀ s, c.session.state.Onward s → t.GoesOn i (opening i q c.session.state s) s)
    (hhistory : c'.history = ⟨i, .asked q, c.session.state⟩ :: c.history)
    (hsession : c'.session = c.session.enqueue (.task t))
    (hfresh : ∀ j, c'.IsFresh j → c.IsFresh j ∧ j ≠ i) : c'.Resting s₀ := by
  obtain ⟨place, hsound, hlocking⟩ := hc
  have hi : place i = .nowhere := hsound.known i hnew
  have hlawful := Lawful.asked i q hsound.lawful hnew hknown
  have hstate : c'.session.state = c.session.state := by rw [hsession]; rfl
  refine ⟨Function.update place i (.queue t), ?_, ?_⟩
  · rw [hstate]
    refine hsound.advance (m := ⟨i, .asked q, c.session.state⟩)
      (.refl (hsound.lawful.coherent h₀)) hlawful (.queue t) hhistory ?_ ⟨hby, ?_⟩
      (fun j => ?_) hfresh
    · rw [hsession]
      exact hsound.layout.enqueue (by rw [hi]; rfl) hby.owner
    · rw [hnew]
      exact hgo
    · by_cases hji : j = i
      · subst hji
        rw [Function.update_self]
        simp
      · rw [Function.update_of_ne hji]
        exact hsound.running j
  · rw [hhistory]
    exact ((hlocking.quiet rfl).move (.inl rfl)).congr (by rw [hsession]; rfl)

theorem by_jobTask (batch index : Nat) (job : Job) :
    (Session.jobTask batch index job : Task Reply).By (.job batch index) :=
  Prog.by_bind job.operation.run fun _ => rfl

theorem goesOn_jobTask {s s' : State} (batch index : Nat) (job : Job) (hs : s.Onward s')
    (hknown : job.number < s.registrations.length) :
    (Session.jobTask batch index job).GoesOn (.job batch index)
      (opening (.job batch index) (.job job) s s') s' := by
  have hidle : (opening (.job batch index) (.job job) s s').Idle s' (.job job) := idle_opening hs.2
  have hjob := job.keeps_operation (i := .job batch index) hidle rfl
    (Nat.lt_of_lt_of_le hknown hs.1.length)
  rw [Op.keeps_iff_run] at hjob
  exact (Prog.keeps_bind _ _ _ _ _).2 hjob

theorem by_task (q : Request) (step : Nat) : (q.task step).By (.host step) :=
  Prog.by_bind q.operation.run fun _ => rfl

theorem goesOn_task {s s' : State} (q : Request) (step : Nat) (hs : s.Onward s')
    (hknown : q.isKnown s = true) :
    (q.task step).GoesOn (.host step) (opening (.host step) q s s') s' := by
  have hrequest := q.keeps_operation (i := .host step) hknown hs
  rw [Op.keeps_iff_run] at hrequest
  exact (Prog.keeps_bind _ _ _ _ _).2 hrequest

/-- The jobs of a batch come into the queue. -/
theorem Resting.beginJobs (h₀ : s₀.Coherent) (batch : Nat) (jobs : List (Job × Nat)) {c : Chronicle}
    (hc : c.Resting s₀) (hbatch : batch < c.session.batches.length)
    (hnew : ∀ x ∈ jobs, c.history.story (.job batch x.2) = []) (hnodup : (jobs.map Prod.snd).Nodup)
    (hknown : ∀ x ∈ jobs, x.1.number < c.session.state.registrations.length) :
    (jobs.foldl (fun c (job, index) =>
      c.begin (.job batch index) (.job job) (Session.jobTask batch index job)) c).Resting s₀ := by
  induction jobs generalizing c with
  | nil => exact hc
  | cons x jobs ih =>
    obtain ⟨job, index⟩ := x
    rw [List.map_cons, List.nodup_cons] at hnodup
    rw [List.foldl_cons]
    have hx := hknown (job, index) List.mem_cons_self
    refine ih ?_ hbatch (fun y hy => ?_) hnodup.2 fun y hy => hknown y (List.mem_cons_of_mem _ hy)
    · refine hc.begin h₀ (i := .job batch index) (q := .job job) (hnew _ List.mem_cons_self)
        (decide_eq_true hx) (by_jobTask batch index job)
        (fun s hs => goesOn_jobTask batch index job hs hx) rfl rfl fun j hj => ⟨hj, ?_⟩
      rintro rfl
      exact absurd hj (Nat.not_le_of_lt hbatch)
    · refine (story_cons_of_ne _ ?_).trans (hnew y (List.mem_cons_of_mem _ hy))
      intro hindex
      obtain rfl : index = y.2 := (TaskId.job.inj hindex).2
      exact hnodup.1 (List.mem_map.2 ⟨y, hy, rfl⟩)

/-- A running task waits for jobs that have not come into the queue yet. -/
theorem Running.gather (hc : c.Running s₀ b i place) (hstart : (c.history.story i).start = b)
    {jobs : List Job} {k : List (Except Fault CheckResult) → Task Reply}
    (hby : ∀ rs, (k rs).By i)
    (hduty : (conduct i).gather (c.history.story i) c.session.state jobs)
    (hgo : ∀ rs s₁, c.session.state.Onward s₁ → (k rs).GoesOn i
      (⟨i, .resumed, s₁⟩ :: ⟨i, .gathered jobs, c.session.state⟩ :: c.history.story i) s₁) :
    ((c.note i (.gathered jobs)).onSession fun s =>
      { s with batches := s.batches ++ [⟨jobs.map fun _ => none, 0, k⟩] }).Resting s₀ := by
  have hi := hc.sound.place_running
  have hnot := hc.sound.not_fresh (i := i) (by simp [hi])
  have hon : b.Onward c.session.state := hstart ▸ hduty.1.onward
  have hlawful := Lawful.gathered i jobs hc.sound.lawful hstart hduty
  refine ⟨Function.update place i (.batch c.session.batches.length k), ?_, ?_⟩
  · refine hc.sound.advance (m := ⟨i, .gathered jobs, c.session.state⟩) hon hlawful _ rfl
      (hc.sound.layout.gather (by rw [hi]; rfl) ⟨jobs.map fun _ => none, 0, k⟩) ⟨hby, hgo⟩
      (hc.sound.running_update (by simp)) fun j hj => ?_
    have hold : c.IsFresh j := by
      cases j with
      | host step => exact hj
      | job batch index =>
        have hj' : (c.session.batches ++ [_]).length ≤ batch := hj
        rw [List.length_append] at hj'
        exact Nat.le_of_add_right_le hj'
    exact ⟨hold, fun hji : j = i => hnot (hji ▸ hold)⟩
  · refine ((hc.locking.quiet (m := ⟨i, .gathered jobs, c.session.state⟩) rfl).move
      (.inr ?_)).congr rfl
    rw [holding_story_of_quiet rfl]
    exact hduty.2.1

/-- A running task starts jobs and waits for them. -/
theorem Running.startBatch (hc : c.Running s₀ b i place) (h₀ : s₀.Coherent)
    (hstart : (c.history.story i).start = b) {jobs : List Job}
    {k : List (Except Fault CheckResult) → Task Reply} (hby : ∀ rs, (k rs).By i)
    (hduty : (conduct i).gather (c.history.story i) c.session.state jobs)
    (hgo : ∀ rs s₁, c.session.state.Onward s₁ → (k rs).GoesOn i
      (⟨i, .resumed, s₁⟩ :: ⟨i, .gathered jobs, c.session.state⟩ :: c.history.story i) s₁) :
    (c.startBatch i jobs k).Resting s₀ := by
  have hi := hc.sound.place_running
  rw [Chronicle.startBatch]
  refine Resting.beginJobs h₀ c.session.batches.length _ (hc.gather hstart hby hduty hgo) ?_
    (fun x hx => ?_) ?_ fun x hx => ?_
  · simp [Chronicle.onSession, Chronicle.note]
  · have hfresh := hc.sound.fresh (.job c.session.batches.length x.2) (Nat.le_refl _)
    refine (story_cons_of_ne _ ?_).trans hfresh
    rintro rfl
    exact hc.sound.story_ne_nil (by simp [hi]) hfresh
  · rw [List.zipIdx_map_snd]
    exact List.nodup_range'
  · exact hduty.2.2 x.1 (List.fst_mem_of_mem_zipIdx hx)

/-- A task that runs keeps a chronicle sound. -/
theorem Running.run (h₀ : s₀.Coherent) (t : Task Reply) (hc : c.Running s₀ b i place)
    (hstart : (c.history.story i).start = b) (hby : t.By i)
    (hgo : t.GoesOn i (c.history.story i) c.session.state) : (c.run i t).Resting s₀ := by
  induction t generalizing c b place with
  | done f => exact hc.finish hstart hgo
  | read k ih => exact ih _ hc hstart (hby _) hgo
  | write s k ih => exact ih (hc.onSession rfl rfl rfl (Nat.le_refl _) rfl rfl rfl) hstart hby hgo.2
  | spawn call k ih =>
    obtain ⟨hduty, hgo⟩ := hgo
    have hon : b.Onward c.session.state := hstart ▸ hduty.1.onward
    have hcoherent := hduty.1.coherent
    have hlawful := Lawful.spawned i call hc.sound.lawful hstart hduty
    have hspawned : (c.spawned i call).Running s₀ c.session.state i place :=
      (hc.note hon rfl hlawful).onSession rfl rfl rfl (by simp) rfl rfl rfl
    -- whatever comes back at once, the story goes on with it
    have hanswered : ∀ (c' : Chronicle) (e : Except Fault Ended),
        c'.Running s₀ c.session.state i place → c'.session.state.core = c.session.state.core →
        c'.history.story i = ⟨i, .spawned call, c.session.state⟩ :: c.history.story i →
        ((c'.answered i e).run i (k e)).Resting s₀ := by
      intro c' e hc' hcore hstory
      have hon' : c.session.state.Onward c'.session.state := .of_core hcore hcoherent
      have hstory' : (c'.answered i e).history.story i = ⟨i, .resumed, c'.session.state⟩ ::
          ⟨i, .returned e, c'.session.state⟩ :: ⟨i, .spawned call, c.session.state⟩ ::
            c.history.story i := by
        rw [Chronicle.answered, story_note, story_note, hstory]
        rfl
      refine ih e (hc'.answered hcoherent hcore e) ?_ (hby e) ?_
      · rw [hstory']
        rfl
      · rw [hstory']
        exact hgo e c'.session.state c'.session.state hon' (.refl hon'.2)
    rw [Chronicle.run]
    cases (Behaviour.take call c.session.script).1.fault? with
    | some fault => exact hanswered _ _ hspawned rfl (story_note c i _)
    | none =>
      simp only
      split
      · exact hc.hold hon hlawful hby hgo
      · exact hanswered _ _ (hspawned.onSession rfl rfl rfl (Nat.le_refl _) rfl rfl rfl) rfl
          (story_note c i _)
  | sleep ms k => exact hc.lieDown hstart hby hgo.1 hgo.2
  | lock l k ih =>
    obtain ⟨hduty, hgo⟩ := hgo
    rw [Chronicle.run]
    split
    · next hheld => exact hc.await hstart hheld hby hduty hgo
    · next hheld =>
      have hstory : (c.enter i l).history.story i = ⟨i, .resumed, c.session.state⟩ ::
          ⟨i, .entered l, c.session.state⟩ :: ⟨i, .reached l, c.session.state⟩ ::
            c.history.story i := by
        rw [Chronicle.enter, story_note, story_note]
        exact congrArg _ (congrArg _ (story_note c i _))
      have hrefl := State.Onward.refl hduty.1.coherent
      refine ih (hc.enter hstart hduty (by simpa using hheld)) ?_ hby ?_
      · rw [hstory]
        rfl
      · rw [hstory]
        exact hgo c.session.state c.session.state hrefl hrefl
  | unlock l k ih =>
    obtain ⟨hduty, hgo⟩ := hgo
    obtain ⟨place', hc', hstory⟩ := hc.leave h₀ hstart hduty
    rw [Chronicle.run]
    refine ih hc' ?_ hby ?_
    · rw [hstory]
      exact hstart
    · have hstate : (c.leave i l).session.state = c.session.state := by
        rw [session_leave, Session.free]
        split <;> rfl
      rw [hstory, hstate]
      exact hgo
  | gather jobs k ih =>
    obtain ⟨hduty, hgo⟩ := hgo
    rw [Chronicle.run]
    split
    · next hempty =>
      have hon : b.Onward c.session.state := hstart ▸ hduty.1.onward
      have hrefl := State.Onward.refl hduty.1.coherent
      have hgathered : (c.note i (.gathered jobs)).Running s₀ c.session.state i place :=
        hc.note hon rfl (.gathered i jobs hc.sound.lawful hstart hduty)
      have hstory : ((c.note i (.gathered jobs)).note i .resumed).history.story i =
          ⟨i, .resumed, c.session.state⟩ :: ⟨i, .gathered jobs, c.session.state⟩ ::
            c.history.story i := by
        rw [story_note, story_note]
        rfl
      refine ih [] (hgathered.note hrefl rfl (.resumed i hgathered.sound.lawful)) ?_ (hby []) ?_
      · rw [hstory]
        rfl
      · rw [hstory]
        exact hgo [] c.session.state hrefl
    · exact hc.startBatch h₀ hstart hby hduty hgo

/-! ## Moves -/

theorem Resting.request (hc : c.Resting s₀) (h₀ : s₀.Coherent) (q : Request) :
    (c.step (.request q)).Resting s₀ := by
  rw [step]
  split
  · next hknown =>
    have hnew : c.history.story (.host c.asked) = [] := by
      obtain ⟨place, hsound, -⟩ := hc
      exact hsound.fresh (.host c.asked) (Nat.le_refl _)
    refine hc.begin h₀ hnew hknown (by_task q c.asked)
      (fun s hs => goesOn_task q c.asked hs hknown) rfl rfl fun j hj => ?_
    cases j with
    | host step =>
      have hstep : c.asked + 1 ≤ step := hj
      refine ⟨Nat.le_of_lt hstep, fun hj => ?_⟩
      cases hj
      exact absurd hstep (Nat.not_succ_le_self _)
    | job batch index => exact ⟨hj, by simp⟩
  · exact hc

theorem Resting.world (hc : c.Resting s₀) (h₀ : s₀.Coherent) (w : World) :
    (c.step (.world w)).Resting s₀ := by
  obtain ⟨place, hsound, hlocking⟩ := hc
  have hon : c.session.state.Onward { c.session.state with world := w } :=
    .of_core (State.core_withWorld _ w) (hsound.lawful.coherent h₀)
  have hsame := hsound.onSession (f := fun s => { s with state := { s.state with world := w } }) rfl
    (fun _ => rfl) rfl (Nat.le_refl _) rfl rfl rfl fun n x hx hnoted => ⟨x, hx, hnoted, rfl⟩
  exact ⟨place, ⟨.outside hsound.lawful (State.core_withWorld _ w), hsame.layout,
    fun j => (hsound.well j).onward hon, hsame.running, hsame.known, hsame.fresh⟩,
    hlocking.congr rfl⟩

theorem Resting.release (hc : c.Resting s₀) (h₀ : s₀.Coherent) (call : Nat) :
    (c.step (.release call)).Resting s₀ := by
  rw [step]
  cases hheld : c.session.held.get? call with
  | none => exact hc
  | some x =>
    obtain ⟨place, hsound, hlocking⟩ := hc
    obtain ⟨-, i, hi⟩ := hsound.layout.child call x hheld
    have hwell := hsound.well i
    rw [hi] at hwell
    have howner : ∀ e, (x.resume e).owner = i := fun e => (hwell.1 e).owner
    have hone : ∀ j y, place j = .child call y → j = i := by
      intro j y hj
      have hwell' := hsound.well j
      rw [hj] at hwell'
      obtain rfl : x = y := Option.some.inj (hheld.symm.trans (hsound.layout.children j call y hj))
      rw [← (hwell'.1 (.error (.unknownWorkspace ""))).owner, howner]
    have hnot := hsound.not_fresh (i := i) (by simp [hi])
    have hcore := State.core_withWorld c.session.state (x.behaviour.finish c.session.state.world)
    have hon := State.Onward.of_core hcore (hsound.lawful.coherent h₀)
    simp only [howner]
    refine ⟨Function.update place i (.queue (x.resume (.ok (x.behaviour.ended x.call)))), ?_, ?_⟩
    · refine hsound.advance (m := ⟨i, .returned (.ok (x.behaviour.ended x.call)), _⟩) hon
        (.returned i _ hsound.lawful hcore) _ rfl ?_ ⟨hwell.1 _, fun s hs => hwell.2 _ _ s hon hs⟩
        (fun j => ?_) fun j hj => ⟨hj, fun hji : j = i => hnot (hji ▸ hj)⟩
      · rw [← Function.update_idem .nowhere _ place]
        refine Layout.enqueue ?_ (by simp [Station.isOut]) (howner _)
        exact (hsound.layout.release hi hone).congr rfl (fun _ => rfl) rfl (Nat.le_refl _) rfl rfl
          fun n x hx hnoted => ⟨x, hx, hnoted, rfl⟩
      · by_cases hji : j = i
        · subst hji
          rw [Function.update_self]
          simp
        · rw [Function.update_of_ne hji]
          exact hsound.running j
    · exact ((hlocking.quiet (m := ⟨i, .returned (.ok (x.behaviour.ended x.call)), _⟩) rfl).move
        (.inl rfl)).congr rfl

/-- The end of a job is noted. -/
theorem Resting.noteJob (hc : c.Resting s₀) (batch : Nat) :
    (c.onSession (·.noteJob batch)).Resting s₀ := by
  obtain ⟨place, hsound, hlocking⟩ := hc
  cases hbatch : c.session.batches[batch]? with
  | none =>
    have hsame : c.session.noteJob batch = c.session := by rw [Session.noteJob, hbatch]
    rw [Chronicle.onSession, hsame]
    exact ⟨place, hsound, hlocking⟩
  | some x =>
    by_cases hlast : x.noted + 1 = x.results.length
    · obtain ⟨i, hi⟩ := hsound.layout.batch batch x hbatch (by omega)
      have hwell := hsound.well i
      rw [hi] at hwell
      have hnote : c.session.noteJob batch = ({ c.session with
          batches := c.session.batches.set batch { x with noted := x.noted + 1 } } :
            Session Reply).enqueue (.task (x.resume (x.results.filterMap id))) := by
        simp only [Session.noteJob, hbatch, if_pos hlast]
      rw [Chronicle.onSession, hnote]
      refine ⟨Function.update place i (.queue (x.resume (x.results.filterMap id))), ?_,
        (hlocking.move (.inl rfl)).congr rfl⟩
      refine hsound.relocate _ rfl ?_ ⟨hwell.1 _, hwell.2 _⟩ (fun j => ?_)
        (hsound.story_ne_nil (by simp [hi])) fun j hj => ?_
      · rw [← Function.update_idem .nowhere _ place]
        refine Layout.enqueue (hsound.layout.noted hi ?_) (by simp [Station.isOut])
          (hwell.1 _).owner
        exact Nat.le_of_eq hlast.symm
      · by_cases hji : j = i
        · subst hji
          rw [Function.update_self]
          simp
        · rw [Function.update_of_ne hji]
          exact hsound.running j
      · cases j with
        | host step => exact hj
        | job batch' index => exact Nat.le_trans (Nat.le_of_eq List.length_set.symm) hj
    · have hnote : c.session.noteJob batch = { c.session with
          batches := c.session.batches.set batch { x with noted := x.noted + 1 } } := by
        simp only [Session.noteJob, hbatch, if_neg hlast]
      rw [Chronicle.onSession, hnote]
      refine ⟨place, hsound.onSession (f := fun s => { s with
        batches := c.session.batches.set batch { x with noted := x.noted + 1 } }) rfl (fun _ => rfl)
        rfl (Nat.le_refl _) rfl rfl List.length_set fun n y hy hnoted => ?_, hlocking.congr rfl⟩
      simp only [List.getElem?_set] at hy
      split at hy
      · next hn =>
        subst hn
        split at hy
        · cases hy
          exact ⟨x, hbatch, by simp only at hnoted; omega, rfl⟩
        · exact absurd hy (by simp)
      · exact ⟨y, hy, hnoted, rfl⟩

/-- Who is taken from the queue, or is woken, begins to run. -/
theorem Resting.goOn (hsound : Sound s₀ c.session.state none place c)
    (hlocking : Locking place c.session c.history) (h₀ : s₀.Coherent) {t : Task Reply}
    (hi : (∃ n, place t.owner = .asleep n t) ∨ place t.owner = .queue t)
    {f : Session Reply → Session Reply}
    (hlayout : Layout (Function.update place t.owner .running) (f c.session))
    (hstate : (f c.session).state = c.session.state)
    (hlocks : (f c.session).locks = c.session.locks)
    (hbatches : (f c.session).batches = c.session.batches) :
    ∃ place, ((c.onSession f).note t.owner .resumed).Running s₀ c.session.state t.owner place ∧
      t.By t.owner ∧ t.GoesOn t.owner
        (⟨t.owner, .resumed, c.session.state⟩ :: c.history.story t.owner) c.session.state := by
  have hwell : t.By t.owner ∧ ∀ s, c.session.state.Onward s →
      t.GoesOn t.owner (⟨t.owner, .resumed, s⟩ :: c.history.story t.owner) s := by
    have hwell := hsound.well t.owner
    rcases hi with ⟨n, hi⟩ | hi <;> rwa [hi] at hwell
  have hsome : place t.owner ≠ .nowhere := by
    rcases hi with ⟨n, hi⟩ | hi <;> simp [hi]
  have hrefl := State.Onward.refl (hsound.lawful.coherent h₀)
  have hnot := hsound.not_fresh hsome
  have hrunning : Sound s₀ c.session.state (some t.owner)
      (Function.update place t.owner .running) ((c.onSession f).note t.owner .resumed) := by
    have hhistory : ((c.onSession f).note t.owner .resumed).history =
        ⟨t.owner, .resumed, c.session.state⟩ :: c.history := by
      rw [← hstate]
      rfl
    refine hsound.advance hrefl (.resumed t.owner hsound.lawful) .running hhistory hlayout trivial
      (fun j => ?_) fun j hj => ?_
    · by_cases hj : j = t.owner
      · subst hj
        simp
      · rw [Function.update_of_ne hj, hsound.running]
        simp [Ne.symm hj]
    · have hold : c.IsFresh j := by
        cases j with
        | host step => exact hj
        | job batch index => exact (congrArg List.length hbatches).ge.trans hj
      exact ⟨hold, fun hji : j = t.owner => hnot (hji ▸ hold)⟩
  have hlocking' : Locking (Function.update place t.owner .running) (f c.session)
      ((c.onSession f).note t.owner .resumed).history :=
    ((hlocking.quiet rfl).move (.inl rfl)).congr hlocks
  exact ⟨_, ⟨hrunning, hlocking'⟩, hwell.1, hwell.2 _ hrefl⟩

/-- The first task of the queue goes on. -/
theorem Resting.dequeue (hc : c.Resting s₀) (h₀ : s₀.Coherent) {t : Task Reply}
    {rest : List (Ready Reply)} (hready : c.session.ready = .task t :: rest) :
    ∃ place, ((c.onSession fun s => { s with ready := rest }).note t.owner .resumed).Running s₀
      c.session.state t.owner place ∧ t.By t.owner ∧
        t.GoesOn t.owner (⟨t.owner, .resumed, c.session.state⟩ :: c.history.story t.owner)
          c.session.state := by
  obtain ⟨place, hsound, hlocking⟩ := hc
  refine Resting.goOn hsound hlocking h₀ (.inr (hsound.layout.queue t ?_))
    (hsound.layout.dequeue hready) rfl rfl rfl
  rw [Session.tasks, hready]
  exact List.mem_cons_self

/-- A task that sleeps goes on. -/
theorem Resting.rouse (hc : c.Resting s₀) (h₀ : s₀.Coherent) {t : Task Reply} {pause : Nat}
    (ht : c.session.asleep.get? pause = some t) :
    ∃ place, ((c.onSession fun s =>
        { s with asleep := s.asleep.erase pause }).note t.owner .resumed).Running s₀
      c.session.state t.owner place ∧ t.By t.owner ∧
        t.GoesOn t.owner (⟨t.owner, .resumed, c.session.state⟩ :: c.history.story t.owner)
          c.session.state := by
  obtain ⟨place, hsound, hlocking⟩ := hc
  exact Resting.goOn hsound hlocking h₀ (.inl ⟨pause, (hsound.layout.sleeper pause t ht).2⟩)
    (hsound.layout.wake ht) rfl rfl rfl

/-- A note that a job has ended is taken from the queue. -/
theorem Resting.dequeueNote (hc : c.Resting s₀) {batch : Nat} {rest : List (Ready Reply)}
    (hready : c.session.ready = .jobEnded batch :: rest) :
    (c.onSession fun s => { s with ready := rest }).Resting s₀ := by
  obtain ⟨place, hsound, hlocking⟩ := hc
  refine ⟨place, hsound.onSession ?_ (fun _ => rfl) rfl (Nat.le_refl _) rfl rfl rfl
    fun n x hx hnoted => ⟨x, hx, hnoted, rfl⟩, hlocking.congr rfl⟩
  rw [Session.tasks, Session.tasks, hready]
  rfl

theorem Resting.take (hc : c.Resting s₀) (h₀ : s₀.Coherent) : (c.step .take).Resting s₀ := by
  rw [step]
  cases hready : c.session.ready with
  | nil => exact hc
  | cons r rest =>
    simp only
    cases r with
    | task t =>
      obtain ⟨place, hrunning, hby, hgoesOn⟩ := hc.dequeue h₀ hready
      refine Running.run h₀ t hrunning ?_ hby ?_
      · rw [story_note]
        rfl
      · rw [story_note]
        exact hgoesOn
    | jobEnded batch => exact (hc.dequeueNote hready).noteJob batch

theorem Resting.wake (hc : c.Resting s₀) (h₀ : s₀.Coherent) (pause : Nat) :
    (c.wake pause).Resting s₀ := by
  rw [Chronicle.wake]
  cases ht : c.session.asleep.get? pause with
  | none => exact hc
  | some t =>
    obtain ⟨place, hrunning, hby, hgoesOn⟩ := hc.rouse h₀ ht
    refine Running.run h₀ t hrunning ?_ hby ?_
    · rw [story_note]
      rfl
    · rw [story_note]
      exact hgoesOn

/-- Every move keeps a chronicle sound. -/
theorem Resting.step (hc : c.Resting s₀) (h₀ : s₀.Coherent) (m : Move) :
    (c.step m).Resting s₀ := by
  cases m with
  | request q => exact hc.request h₀ q
  | respond bs =>
    obtain ⟨place, hsound, hlocking⟩ := hc
    exact ⟨place, hsound.onSession (f := fun s => { s with script := s.script ++ bs }) rfl
      (fun _ => rfl) rfl (Nat.le_refl _) rfl rfl rfl fun n x hx hnoted => ⟨x, hx, hnoted, rfl⟩,
      hlocking.congr rfl⟩
  | world w => exact hc.world h₀ w
  | release call => exact hc.release h₀ call
  | wake pause => exact hc.wake h₀ pause
  | take => exact hc.take h₀

theorem coherent_setup (setup : Setup) : setup.state.Coherent where
  registered k n hn := absurd hn (by simp [Setup.state])
  unremoved n hn _ := absurd hn (by simp [Setup.state])
  listed k n hn := absurd hn (by simp [Setup.state])
  current k id hid := absurd hid (by simp [Setup.state])

/-- Whatever happens, a chronicle is sound. -/
theorem resting_after (setup : Setup) (moves : List Move) :
    (after setup moves).Resting setup.state := by
  have hfirst : Resting ⟨{ state := setup.state }, [], 0⟩ setup.state := by
    refine ⟨fun _ => .nowhere, ⟨.nil, ⟨?_, ?_, ?_, ?_, ?_, ?_, ?_, ?_, ?_⟩, fun _ => trivial, ?_,
      fun _ _ => rfl, fun _ _ => rfl⟩, ⟨?_, ?_, ?_, ?_⟩⟩ <;>
      simp [Session.tasks, Session.lock, arrivals, entries, story, holding]
  have hsteps : ∀ (moves : List Move) (c : Chronicle), c.Resting setup.state →
      (moves.foldl Chronicle.step c).Resting setup.state := by
    intro moves
    induction moves with
    | nil => exact fun c hc => hc
    | cons m moves ih => exact fun c hc => ih _ (hc.step (coherent_setup setup) m)
  exact hsteps moves _ hfirst

/-- Every history is lawful. -/
theorem lawful_after (setup : Setup) (moves : List Move) :
    Lawful setup.state (after setup moves).session.state (after setup moves).history := by
  obtain ⟨place, hsound, -⟩ := resting_after setup moves
  exact hsound.lawful

end Chronicle

end Run

end Overseer
