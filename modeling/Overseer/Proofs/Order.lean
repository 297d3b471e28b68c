import Overseer.Proofs.Scheduling

set_option autoImplicit false

/-! # Checks in the order of arrival

The checks of a workspace whose registration is never removed all wait for the same lock. They
are given it in the order in which they asked for it, each once, and none ends without having
been given it. When the scheduler has nothing more to do, all of them have had their turn, or the
one whose turn it is waits for a child process (`Orderly`).

What a check then starts first, apart from processes that stop a daemon, is worked out from the
settings in force at that moment, not from those at the time of the request (`WellRun`). There is
one exception: if no status file is configured any more, a handle that was made for another status
file is used all the same (`Daemon.Stale`, `old_status_file_kept`). -/

namespace Overseer

open Chronicle

namespace History

variable {s₀ b : State} {h : History} {i : TaskId} {l : Nat}

/-! ## What a check starts first -/

/-- What neither asks, nor starts a process, nor gives a lock does not change what a check has
started. -/
theorem WellRun.cons {m : Moment} (hasked : ∀ q, m.what ≠ .asked q)
    (hspawned : ∀ c, m.what ≠ .spawned c) (hentered : ∀ l, m.what ≠ .entered l)
    (hh : h.WellRun) : WellRun (m :: h) := by
  intro hin
  have hsame : hasEntered (m :: h) = h.hasEntered ∧ calls (m :: h) = h.calls := by
    obtain ⟨who, what, state⟩ := m
    cases what with
    | asked q => exact absurd rfl (hasked q)
    | spawned c => exact absurd rfl (hspawned c)
    | entered l => exact absurd rfl (hentered l)
    | _ => exact ⟨by simp [hasEntered], rfl⟩
  obtain ⟨r, n, stops, hr, hn, hrest⟩ := hh (hsame.1 ▸ hin)
  have hnew : ∀ q, m.what = .asked q → h = [] := fun q hq => absurd hq (hasked q)
  rw [hsame.2]
  exact ⟨r, n, stops, request?_cons hnew hr, subject?_cons hnew hn, hrest⟩

/-- Nobody asks for two locks. -/
theorem Lawful.arrivals_unique (hlawful : Lawful s₀ b h) {l l' : Nat} (hl : i ∈ h.arrivals l)
    (hl' : i ∈ h.arrivals l') : l = l' := by
  induction hlawful with
  | nil => exact absurd hl (by simp [arrivals])
  | outside hb hworld ih => exact ih hl hl'
  | @reached b s h j k hb hstart hduty ih =>
    have hfirst : ∀ l, j ∉ h.arrivals l := by
      intro l hj
      have hreached := hduty.2.2.1
      rw [hasReached_of_mem_arrivals hj] at hreached
      exact absurd hreached (by simp)
    -- the one who asks now has not asked before, for whichever lock
    have hcases : ∀ {l}, i ∈ arrivals (⟨j, .reached k, s⟩ :: h) l →
        i = j ∧ k = l ∨ i ≠ j ∧ i ∈ h.arrivals l := by
      intro l hi
      rw [arrivals_reached] at hi
      split at hi
      · next hk =>
        rcases List.mem_cons.1 hi with rfl | hi
        · exact .inl ⟨rfl, hk⟩
        · exact .inr ⟨fun hij => hfirst l (hij ▸ hi), hi⟩
      · exact .inr ⟨fun hij => hfirst l (hij ▸ hi), hi⟩
    rcases hcases hl with ⟨hij, hk⟩ | ⟨hij, hi⟩ <;> rcases hcases hl' with ⟨hij', hk'⟩ | ⟨hij', hi'⟩
    · exact hk.symm.trans hk'
    · exact absurd hij hij'
    · exact absurd hij' hij
    · exact ih hi hi'
  | entered j k hb hon hfree hfirst ih => exact ih hl hl'
  | left j k hb hstart hduty ih => exact ih hl hl'
  | _ =>
    rename_i ih
    rw [arrivals_cons_of_quiet rfl] at hl hl'
    exact ih hl hl'

theorem mem_entries_of_hasEntered (hi : (h.story i).hasEntered = true) : ∃ l, i ∈ h.entries l := by
  obtain ⟨m, hm, hentered⟩ := List.any_eq_true.1 hi
  obtain ⟨hm, hwho⟩ := List.mem_filter.1 hm
  split at hentered
  · next l hwhat =>
    refine ⟨l, List.mem_filterMap.2 ⟨m, hm, ?_⟩⟩
    rw [hwhat]
    simpa using hwho
  · exact absurd hentered (by simp)

/-- Whoever ends keeps to what is asked of him at the end. -/
theorem Lawful.settled {s : State} {r : Except Fault Reply}
    (hlawful : Lawful s₀ b (⟨i, .ended r, s⟩ :: h)) :
    (∃ b', Lawful s₀ b' h) ∧ (h.story i).Settled s r := by
  generalize hpast : (⟨i, .ended r, s⟩ :: h : History) = past at hlawful
  induction hlawful with
  | outside hb hworld ih => exact ih hpast
  | ended j r' hb hstart hduty =>
    cases hpast
    exact ⟨⟨_, hb⟩, hduty⟩
  | _ => exact absurd hpast (by simp)

/-- Whoever ends has been given the lock that he asked for. -/
theorem Lawful.mem_entries_of_ended {s : State} {r : Except Fault Reply}
    (hlawful : Lawful s₀ b (⟨i, .ended r, s⟩ :: h)) (hi : i ∈ h.arrivals l) :
    i ∈ h.entries l := by
  obtain ⟨⟨b', hb'⟩, -, -, hentered, -⟩ := hlawful.settled
  obtain ⟨l', hl'⟩ := mem_entries_of_hasEntered (hentered (hasReached_of_mem_arrivals hi))
  have hsame := hb'.arrivals_unique hi ((hb'.entries_suffix l').subset hl')
  exact hsame ▸ hl'

end History

/-! ## The order of checks -/

/-- A lock is given in the order of arrival. -/
structure Chronicle.Orderly (c : Chronicle) (l : Nat) : Prop where
  /-- Those who have been given the lock are those who asked for it first, in the same order. -/
  order : c.history.entries l <:+ c.history.arrivals l
  once : (c.history.arrivals l).Nodup
  /-- Nobody ends without having been given the lock that he asked for. -/
  served : ∀ (m : Moment) (h : History), m :: h <:+ c.history → (∃ r, m.what = .ended r) →
    m.who ∈ h.arrivals l → m.who ∈ h.entries l
  /-- When the scheduler has nothing to do, everybody has had the lock and has given it back, or
  the one who has it waits for a child process or pauses. -/
  onward : c.session.ready = [] →
    (c.history.entries l = c.history.arrivals l ∧ ∀ i, (c.history.story i).holding ≠ some l) ∨
      (∃ i call x, (c.history.story i).holding = some l ∧ c.session.held.get? call = some x ∧
        ∀ e, (x.resume e).owner = i) ∨
      ∃ i pause t, (c.history.story i).holding = some l ∧ c.session.asleep.get? pause = some t ∧
        t.owner = i

theorem Chronicle.Resting.onward {c : Chronicle} {s₀ : State} (hc : c.Resting s₀)
    (hready : c.session.ready = []) (l : Nat) :
    (c.history.entries l = c.history.arrivals l ∧ ∀ i, (c.history.story i).holding ≠ some l) ∨
      (∃ i call x, (c.history.story i).holding = some l ∧ c.session.held.get? call = some x ∧
        ∀ e, (x.resume e).owner = i) ∨
      ∃ i pause t, (c.history.story i).holding = some l ∧ c.session.asleep.get? pause = some t ∧
        t.owner = i := by
  obtain ⟨place, hsound, hlocking⟩ := hc
  cases hheld : (c.session.lock l).held with
  | false =>
    obtain ⟨hwaiting, hfree⟩ := hlocking.free l hheld
    refine .inl ⟨?_, hfree⟩
    rw [hlocking.arrivals l, hwaiting]
    rfl
  | true =>
    obtain ⟨i, hi, hactive⟩ := hlocking.held l hheld
    -- nobody runs and the queue is empty, so the holder stands behind a child process or pauses
    cases hplace : place i with
    | running => exact absurd ((hsound.running i).1 hplace) (by simp)
    | queue t =>
      have ht := (hsound.layout.queued i t hplace).1
      exact absurd ht (by simp [Session.tasks, hready])
    | child call x =>
      have hwell := hsound.well i
      rw [hplace] at hwell
      have hcall := hsound.layout.children i call x hplace
      exact .inr (.inl ⟨i, call, x, hi, hcall, fun e => (hwell.1 e).owner⟩)
    | asleep pause t =>
      obtain ⟨ht, howner⟩ := hsound.layout.sleepers i pause t hplace
      exact .inr (.inr ⟨i, pause, t, hi, ht, howner⟩)
    | nowhere | lock | batch =>
      rw [hplace] at hactive
      exact absurd hactive (by simp [Station.isActive])

theorem Chronicle.Resting.orderly {c : Chronicle} {s₀ : State} (hc : c.Resting s₀) (l : Nat) :
    c.Orderly l := by
  obtain ⟨place, hsound, -⟩ := id hc
  refine ⟨hsound.lawful.entries_suffix l, hsound.lawful.nodup_arrivals l, ?_,
    fun hready => hc.onward hready l⟩
  rintro ⟨who, what, state⟩ h hpast ⟨r, rfl⟩ hm
  obtain ⟨b, hlawful⟩ := hsound.lawful.suffix hpast
  exact hlawful.mem_entries_of_ended hm

end Overseer
