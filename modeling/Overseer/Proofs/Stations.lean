import Mathlib.Logic.Function.Basic
import Overseer.Proofs.Chronicle
import Overseer.Proofs.Conduct

set_option autoImplicit false

/-! # Where tasks stand

Between two steps of a task nothing else runs, so all others stand somewhere: in the queue, in
front of a lock, behind a child process or behind a batch, or they lie asleep. A table tells for
each task where it stands. `Station.Well` says that whoever stands somewhere will go on as it
should, whatever the others have done meanwhile; `Layout` says that a session agrees with the table.
Whatever the scheduler does takes one task from where it stands (`Layout.remove`) or puts it
somewhere (`Layout.put`). -/

namespace Overseer

open History

/-! ## Where tasks stand -/

/-- Where a task stands, and how it goes on from there. -/
inductive Station where
  | nowhere
  | running
  | queue (t : Task Reply)
  | lock (l : Nat) (t : Task Reply)
  | child (number : Nat) (x : HeldCall Reply)
  | asleep (number : Nat) (t : Task Reply)
  | batch (number : Nat) (resume : List (Except Fault CheckResult) → Task Reply)

/-- Whether the task goes on without being given a lock or results by another task. -/
def Station.isActive : Station → Bool
  | running | queue _ | child _ _ | asleep _ _ => true
  | _ => false

/-- The rest of a task conducts itself well. -/
def Prog.GoesOn (t : Task Reply) (i : TaskId) (h : History) (s : State) : Prop :=
  t.Keeps (conduct i) (fun f h s => h.Settled s f.reply) h s

/-- Whoever stands somewhere goes on well, whatever the others do before. -/
def Station.Well (b : State) (h : History) (i : TaskId) : Station → Prop
  | nowhere | running => True
  | queue t | asleep _ t => t.By i ∧ ∀ s, b.Onward s → t.GoesOn i (⟨i, .resumed, s⟩ :: h) s
  | lock l t => t.By i ∧ ∀ s₁ s₂, b.Onward s₁ → b.Onward s₂ →
      t.GoesOn i (⟨i, .resumed, s₂⟩ :: ⟨i, .entered l, s₁⟩ :: h) s₂
  | child _ x => (∀ e, (x.resume e).By i) ∧ ∀ e s₁ s₂, b.Onward s₁ → s₁.Onward s₂ →
      (x.resume e).GoesOn i (⟨i, .resumed, s₂⟩ :: ⟨i, .returned e, s₁⟩ :: h) s₂
  | batch _ resume => (∀ rs, (resume rs).By i) ∧ ∀ rs s, b.Onward s →
      (resume rs).GoesOn i (⟨i, .resumed, s⟩ :: h) s

theorem Station.Well.onward {b b' : State} {h : History} {i : TaskId} {x : Station}
    (hx : x.Well b h i) (hb : b.Onward b') : x.Well b' h i := by
  cases x with
  | nowhere | running => trivial
  | queue t | asleep n t => exact ⟨hx.1, fun s hs => hx.2 s (hb.trans hs)⟩
  | lock l t => exact ⟨hx.1, fun s₁ s₂ h₁ h₂ => hx.2 s₁ s₂ (hb.trans h₁) (hb.trans h₂)⟩
  | child n x => exact ⟨hx.1, fun e s₁ s₂ h₁ h₂ => hx.2 e s₁ s₂ (hb.trans h₁) h₂⟩
  | batch n resume => exact ⟨hx.1, fun rs s hs => hx.2 rs s (hb.trans hs)⟩

/-- The task of an item of the queue. -/
def Ready.task? : Ready Reply → Option (Task Reply)
  | task t => some t
  | jobEnded _ => none

/-- The tasks in the queue. -/
def Session.tasks (s : Session Reply) : List (Task Reply) := s.ready.filterMap Ready.task?

theorem Session.tasks_enqueue (s : Session Reply) (t : Task Reply) :
    (s.enqueue (.task t)).tasks = s.tasks ++ [t] := by
  simp [tasks, enqueue, Ready.task?]

theorem Session.lock_setLock (s : Session Reply) (l l' : Nat) (x : Lock Reply) :
    (s.setLock l x).lock l' = if l' = l then x else s.lock l' := by
  simp only [lock, setLock, Assoc.get?_insert]
  split <;> rfl

/-- Whether a task stands nowhere. -/
def Station.isOut : Station → Bool
  | nowhere | running => true
  | _ => false

/-- The session agrees with the table of where tasks stand. -/
structure Layout (place : TaskId → Station) (s : Session Reply) : Prop where
  queue : ∀ t ∈ s.tasks, place t.owner = .queue t
  nodup : (s.tasks.map Prog.owner).Nodup
  queued : ∀ i t, place i = .queue t → t ∈ s.tasks ∧ t.owner = i
  lock : ∀ l, ∀ t ∈ (s.lock l).waiting, place t.owner = .lock l t
  child : ∀ n x, s.held.get? n = some x → n < s.calls.length ∧ ∃ i, place i = .child n x
  children : ∀ i n x, place i = .child n x → s.held.get? n = some x
  sleeper : ∀ n t, s.asleep.get? n = some t → n < s.pauses ∧ place t.owner = .asleep n t
  sleepers : ∀ i n t, place i = .asleep n t → s.asleep.get? n = some t ∧ t.owner = i
  batch : ∀ n x, s.batches[n]? = some x → x.noted < x.results.length →
    ∃ i, place i = .batch n x.resume

namespace Layout

variable {place : TaskId → Station} {s s' : Session Reply} {i : TaskId} {t : Task Reply}

/-- The parts of a session that the table does not tell about may change. -/
theorem congr (hs : Layout place s) (htasks : s'.tasks = s.tasks)
    (hlocks : ∀ l, (s'.lock l).waiting = (s.lock l).waiting) (hheld : s'.held = s.held)
    (hcalls : s.calls.length ≤ s'.calls.length) (hasleep : s'.asleep = s.asleep)
    (hpauses : s'.pauses = s.pauses)
    (hbatches : ∀ (n : Nat) (x : Batch Reply), s'.batches[n]? = some x →
      x.noted < x.results.length → ∃ y : Batch Reply, s.batches[n]? = some y ∧
        y.noted < y.results.length ∧ y.resume = x.resume) :
    Layout place s' where
  queue := by rw [htasks]; exact hs.queue
  nodup := by rw [htasks]; exact hs.nodup
  queued := by rw [htasks]; exact hs.queued
  lock l := by rw [hlocks]; exact hs.lock l
  child n x hx := by
    rw [hheld] at hx
    exact ⟨Nat.lt_of_lt_of_le (hs.child n x hx).1 hcalls, (hs.child n x hx).2⟩
  children := by rw [hheld]; exact hs.children
  sleeper n t ht := by
    rw [hasleep] at ht
    exact ⟨hpauses ▸ (hs.sleeper n t ht).1, (hs.sleeper n t ht).2⟩
  sleepers := by rw [hasleep]; exact hs.sleepers
  batch n x hx hnoted := by
    obtain ⟨y, hy, hnoted', hresume⟩ := hbatches n x hx hnoted
    rw [← hresume]
    exact hs.batch n y hy hnoted'

/-- Whoever stands somewhere is not one who stands nowhere. -/
theorem ne_of_isOut (hi : (place i).isOut = true) {j : TaskId} {x : Station} (hj : place j = x)
    (hx : x.isOut = false) : j ≠ i := by
  rintro rfl
  rw [hj, hx] at hi
  exact absurd hi (by simp)

theorem update_of_isOut (hi : (place i).isOut = true) (y : Station) {j : TaskId} {x : Station}
    (hj : place j = x) (hx : x.isOut = false) : Function.update place i y j = x := by
  rw [Function.update_of_ne (ne_of_isOut hi hj hx), hj]

/-- A task is taken from where it stands, and all others stay where they are. -/
theorem remove (hs : Layout place s) {x : Station} (hx : x.isOut = true)
    (htasks : s'.tasks.Sublist s.tasks) (htask : ∀ t ∈ s'.tasks, t.owner ≠ i)
    (hqueued : ∀ t ∈ s.tasks, t.owner ≠ i → t ∈ s'.tasks)
    (hlock : ∀ l, ∀ t ∈ (s'.lock l).waiting, t ∈ (s.lock l).waiting ∧ t.owner ≠ i)
    (hcalls : s.calls.length ≤ s'.calls.length)
    (hchild : ∀ n y, s'.held.get? n = some y → s.held.get? n = some y ∧ place i ≠ .child n y)
    (hchildren : ∀ j n y, j ≠ i → place j = .child n y → s'.held.get? n = some y)
    (hpauses : s.pauses ≤ s'.pauses)
    (hsleeper : ∀ n t, s'.asleep.get? n = some t → s.asleep.get? n = some t ∧ t.owner ≠ i)
    (hsleepers : ∀ j n t, j ≠ i → place j = .asleep n t → s'.asleep.get? n = some t)
    (hbatch : ∀ (n : Nat) (y : Batch Reply), s'.batches[n]? = some y →
      y.noted < y.results.length → ∃ y₀ : Batch Reply, s.batches[n]? = some y₀ ∧
        y₀.noted < y₀.results.length ∧ y₀.resume = y.resume ∧ place i ≠ .batch n y.resume) :
    Layout (Function.update place i x) s' := by
  have hother : ∀ j y, place j = y → place i ≠ y → Function.update place i x j = y := by
    intro j y hj hi
    rw [Function.update_of_ne, hj]
    rintro rfl
    exact hi hj
  have hback : ∀ j y, Function.update place i x j = y → y.isOut = false → j ≠ i ∧ place j = y := by
    intro j y hj hy
    have hji : j ≠ i := by
      rintro rfl
      rw [Function.update_self] at hj
      rw [hj, hy] at hx
      exact absurd hx (by simp)
    rw [Function.update_of_ne hji] at hj
    exact ⟨hji, hj⟩
  refine ⟨fun t ht => ?_, (htasks.map Prog.owner).nodup hs.nodup, fun j t hj => ?_,
    fun l t ht => ?_, fun n y hy => ?_, fun j n y hj => ?_, fun n t ht => ?_, fun j n t hj => ?_,
    fun n y hy hnoted => ?_⟩
  · rw [Function.update_of_ne (htask t ht), hs.queue t (htasks.subset ht)]
  · obtain ⟨hji, hj⟩ := hback j _ hj rfl
    obtain ⟨hmem, rfl⟩ := hs.queued j t hj
    exact ⟨hqueued t hmem hji, rfl⟩
  · obtain ⟨hmem, hti⟩ := hlock l t ht
    rw [Function.update_of_ne hti, hs.lock l t hmem]
  · obtain ⟨hy', hi⟩ := hchild n y hy
    obtain ⟨hn, j, hj⟩ := hs.child n y hy'
    exact ⟨Nat.lt_of_lt_of_le hn hcalls, j, hother j _ hj hi⟩
  · obtain ⟨hji, hj⟩ := hback j _ hj rfl
    exact hchildren j n y hji hj
  · obtain ⟨ht', hti⟩ := hsleeper n t ht
    obtain ⟨hn, hplace⟩ := hs.sleeper n t ht'
    exact ⟨Nat.lt_of_lt_of_le hn hpauses, by rw [Function.update_of_ne hti, hplace]⟩
  · obtain ⟨hji, hj⟩ := hback j _ hj rfl
    exact ⟨hsleepers j n t hji hj, (hs.sleepers j n t hj).2⟩
  · obtain ⟨y₀, hy₀, hnoted₀, hresume, hi⟩ := hbatch n y hy hnoted
    obtain ⟨j, hj⟩ := hs.batch n y₀ hy₀ hnoted₀
    rw [hresume] at hj
    exact ⟨j, hother j _ hj hi⟩

/-- Who stands nowhere may begin or stop to run. -/
theorem out (hs : Layout place s) (hi : (place i).isOut = true) {x : Station}
    (hx : x.isOut = true) : Layout (Function.update place i x) s := by
  have hne : ∀ y, y.isOut = false → place i ≠ y := fun y hy h => ne_of_isOut hi h hy rfl
  refine hs.remove hx (.refl _) (fun t ht => ne_of_isOut hi (hs.queue t ht) rfl)
    (fun _ ht _ => ht) (fun l t ht => ⟨ht, ne_of_isOut hi (hs.lock l t ht) rfl⟩) (Nat.le_refl _)
    (fun n y hy => ⟨hy, hne _ rfl⟩) (fun j n y _ hj => hs.children j n y hj) (Nat.le_refl _)
    (fun n t ht => ⟨ht, ne_of_isOut hi (hs.sleeper n t ht).2 rfl⟩)
    (fun j n t _ hj => (hs.sleepers j n t hj).1)
    fun n y hy hnoted => ⟨y, hy, hnoted, rfl, hne _ rfl⟩

/-- Who stands nowhere is put somewhere, and all others stay where they are. -/
theorem put (hs : Layout place s) (hi : (place i).isOut = true) (x : Station)
    (htask : ∀ t ∈ s'.tasks, t ∈ s.tasks ∨ x = .queue t ∧ t.owner = i)
    (hnodup : (s'.tasks.map Prog.owner).Nodup) (hqueued : ∀ t ∈ s.tasks, t ∈ s'.tasks)
    (hqueue : ∀ t, x = .queue t → t ∈ s'.tasks ∧ t.owner = i)
    (hlock : ∀ l, ∀ t ∈ (s'.lock l).waiting, t ∈ (s.lock l).waiting ∨ x = .lock l t ∧ t.owner = i)
    (hcalls : s.calls.length ≤ s'.calls.length)
    (hchild : ∀ n y, s'.held.get? n = some y →
      s.held.get? n = some y ∨ x = .child n y ∧ n < s'.calls.length)
    (hchildren : ∀ n y, s.held.get? n = some y ∨ x = .child n y → s'.held.get? n = some y)
    (hpauses : s.pauses ≤ s'.pauses)
    (hsleeper : ∀ n t, s'.asleep.get? n = some t →
      s.asleep.get? n = some t ∨ x = .asleep n t ∧ t.owner = i ∧ n < s'.pauses)
    (hkept : ∀ n t, s.asleep.get? n = some t → s'.asleep.get? n = some t)
    (hsleepers : ∀ n t, x = .asleep n t → s'.asleep.get? n = some t ∧ t.owner = i)
    (hbatch : ∀ (n : Nat) (y : Batch Reply), s'.batches[n]? = some y →
      y.noted < y.results.length → s.batches[n]? = some y ∨ x = .batch n y.resume) :
    Layout (Function.update place i x) s' := by
  have hself : ∀ y, x = y → Function.update place i x i = y := fun y hy => by
    rw [Function.update_self, hy]
  have hother : ∀ j y, place j = y → y.isOut = false → Function.update place i x j = y :=
    fun j y hj hy => update_of_isOut hi x hj hy
  have hback : ∀ j y, Function.update place i x j = y → j = i ∧ x = y ∨ place j = y := by
    intro j y hj
    by_cases hji : j = i
    · subst hji
      rw [Function.update_self] at hj
      exact .inl ⟨rfl, hj⟩
    · rw [Function.update_of_ne hji] at hj
      exact .inr hj
  refine ⟨fun t ht => ?_, hnodup, fun j t hj => ?_, fun l t ht => ?_, fun n y hy => ?_,
    fun j n y hj => ?_, fun n t ht => ?_, fun j n t hj => ?_, fun n y hy hnoted => ?_⟩
  · rcases htask t ht with ht | ⟨hx, rfl⟩
    · exact hother _ _ (hs.queue t ht) rfl
    · exact hself _ hx
  · rcases hback j _ hj with ⟨rfl, hx⟩ | hj
    · exact hqueue t hx
    · exact ⟨hqueued t (hs.queued j t hj).1, (hs.queued j t hj).2⟩
  · rcases hlock l t ht with ht | ⟨hx, rfl⟩
    · exact hother _ _ (hs.lock l t ht) rfl
    · exact hself _ hx
  · rcases hchild n y hy with hy | ⟨hx, hn⟩
    · obtain ⟨hn, j, hj⟩ := hs.child n y hy
      exact ⟨Nat.lt_of_lt_of_le hn hcalls, j, hother j _ hj rfl⟩
    · exact ⟨hn, i, hself _ hx⟩
  · rcases hback j _ hj with ⟨rfl, hx⟩ | hj
    · exact hchildren n y (.inr hx)
    · exact hchildren n y (.inl (hs.children j n y hj))
  · rcases hsleeper n t ht with ht | ⟨hx, rfl, hn⟩
    · obtain ⟨hn, hplace⟩ := hs.sleeper n t ht
      exact ⟨Nat.lt_of_lt_of_le hn hpauses, hother _ _ hplace rfl⟩
    · exact ⟨hn, hself _ hx⟩
  · rcases hback j _ hj with ⟨rfl, hx⟩ | hj
    · exact hsleepers n t hx
    · exact ⟨hkept n t (hs.sleepers j n t hj).1, (hs.sleepers j n t hj).2⟩
  · rcases hbatch n y hy hnoted with hy | hx
    · obtain ⟨j, hj⟩ := hs.batch n y hy hnoted
      exact ⟨j, hother j _ hj rfl⟩
    · exact ⟨i, hself _ hx⟩

/-! ### Going somewhere -/

/-- Who stands nowhere is put into the queue. -/
theorem enqueue (hs : Layout place s) (hi : (place i).isOut = true) (ht : t.owner = i) :
    Layout (Function.update place i (.queue t)) (s.enqueue (.task t)) := by
  refine hs.put hi _ (fun t' ht' => ?_) ?_ (fun t' ht' => ?_) (fun t' hx => ?_)
    (fun l t' ht' => .inl ht') (Nat.le_refl _) (fun n y hy => .inl hy)
    (fun n y hy => hy.resolve_right (by simp)) (Nat.le_refl _) (fun n t hn => .inl hn)
    (fun n t hn => hn) (fun n t hx => absurd hx (by simp)) fun n y hy _ => .inl hy
  · rw [Session.tasks_enqueue, List.mem_append, List.mem_singleton] at ht'
    rcases ht' with ht' | rfl
    · exact .inl ht'
    · exact .inr ⟨rfl, ht⟩
  · rw [Session.tasks_enqueue, List.map_append, List.nodup_append]
    refine ⟨hs.nodup, by simp, fun j hj j' hj' => ?_⟩
    obtain ⟨t', ht', rfl⟩ := List.mem_map.1 hj
    rw [List.map_singleton, List.mem_singleton] at hj'
    rw [hj', ht]
    exact ne_of_isOut hi (hs.queue t' ht') rfl
  · rw [Session.tasks_enqueue, List.mem_append]
    exact .inl ht'
  · cases hx
    exact ⟨by simp [Session.tasks_enqueue], ht⟩

/-- Who stands nowhere is put behind a child process. -/
theorem hold (hs : Layout place s) (hi : (place i).isOut = true) (x : HeldCall Reply)
    (hcalls : s'.calls.length = s.calls.length + 1) (hready : s'.ready = s.ready)
    (hlocks : s'.locks = s.locks) (hheld : s'.held = s.held.insert s.calls.length x)
    (hasleep : s'.asleep = s.asleep) (hpauses : s'.pauses = s.pauses)
    (hbatches : s'.batches = s.batches) :
    Layout (Function.update place i (.child s.calls.length x)) s' := by
  have htasks : s'.tasks = s.tasks := by rw [Session.tasks, hready, Session.tasks]
  have hlock : ∀ l, s'.lock l = s.lock l := fun l => by rw [Session.lock, hlocks, Session.lock]
  refine hs.put hi _ (fun t ht => .inl (htasks ▸ ht)) (by rw [htasks]; exact hs.nodup)
    (fun t ht => htasks ▸ ht) (fun t hx => absurd hx (by simp)) (fun l t ht => .inl (hlock l ▸ ht))
    (by omega) (fun n y hy => ?_) (fun n y hy => ?_) hpauses.ge (fun n t hn => .inl (hasleep ▸ hn))
    (fun n t hn => hasleep ▸ hn) (fun n t hx => absurd hx (by simp))
    fun n y hy _ => .inl (hbatches ▸ hy)
  · rw [hheld, Assoc.get?_insert] at hy
    split at hy
    · next hn =>
      cases hy
      subst hn
      exact .inr ⟨rfl, by omega⟩
    · exact .inl hy
  · rw [hheld, Assoc.get?_insert]
    rcases hy with hy | hy
    · rw [if_neg (Nat.ne_of_lt (hs.child n y hy).1), hy]
    · cases hy
      rw [if_pos rfl]

/-- Who stands nowhere lies down to sleep. -/
theorem lieDown (hs : Layout place s) (hi : (place i).isOut = true) (ht : t.owner = i) :
    Layout (Function.update place i (.asleep s.pauses t)) (s.lieDown t) := by
  refine hs.put hi _ (fun t ht => .inl ht) hs.nodup (fun t ht => ht)
    (fun t hx => absurd hx (by simp)) (fun l t ht => .inl ht) (Nat.le_refl _)
    (fun n y hy => .inl hy) (fun n y hy => hy.resolve_right (by simp)) (Nat.le_succ _)
    (fun n t' hn => ?_) (fun n t' hn => ?_) (fun n t' hx => ?_) fun n y hy _ => .inl hy
  · rw [Session.lieDown, Assoc.get?_insert] at hn
    split at hn
    · next hpause =>
      cases hn
      exact .inr ⟨by rw [hpause], ht, hpause ▸ Nat.lt_succ_self _⟩
    · exact .inl hn
  · rw [Session.lieDown, Assoc.get?_insert, if_neg (Nat.ne_of_lt (hs.sleeper n t' hn).1), hn]
  · cases hx
    exact ⟨by rw [Session.lieDown, Assoc.get?_insert, if_pos rfl], ht⟩

/-- Who stands nowhere is put in front of a lock. -/
theorem await (hs : Layout place s) (hi : (place i).isOut = true) (ht : t.owner = i) (l : Nat) :
    Layout (Function.update place i (.lock l t)) (s.await l t) := by
  refine hs.put hi _ (fun t ht => .inl ht) hs.nodup (fun t ht => ht)
    (fun t hx => absurd hx (by simp)) (fun l' t' ht' => ?_) (Nat.le_refl _) (fun n y hy => .inl hy)
    (fun n y hy => hy.resolve_right (by simp)) (Nat.le_refl _) (fun n t hn => .inl hn)
    (fun n t hn => hn) (fun n t hx => absurd hx (by simp)) fun n y hy _ => .inl hy
  rw [Session.await, Session.lock_setLock] at ht'
  split at ht'
  · next hl =>
    subst hl
    rcases List.mem_append.1 ht' with ht' | ht'
    · exact .inl ht'
    · rw [List.mem_singleton] at ht'
      subst ht'
      exact .inr ⟨rfl, ht⟩
  · exact .inl ht'

/-- Who stands nowhere is put behind a batch. -/
theorem gather (hs : Layout place s) (hi : (place i).isOut = true) (x : Batch Reply) :
    Layout (Function.update place i (.batch s.batches.length x.resume))
      { s with batches := s.batches ++ [x] } := by
  refine hs.put hi _ (fun t ht => .inl ht) hs.nodup (fun t ht => ht)
    (fun t hx => absurd hx (by simp)) (fun l t ht => .inl ht) (Nat.le_refl _)
    (fun n y hy => .inl hy) (fun n y hy => hy.resolve_right (by simp)) (Nat.le_refl _)
    (fun n t hn => .inl hn) (fun n t hn => hn) (fun n t hx => absurd hx (by simp))
    fun n y hy _ => ?_
  rcases Nat.lt_or_ge n s.batches.length with hn | hn
  · rw [List.getElem?_append_left hn] at hy
    exact .inl hy
  · rw [List.getElem?_append_right hn, List.getElem?_singleton] at hy
    split at hy
    · cases hy
      obtain rfl : n = s.batches.length := by omega
      exact .inr rfl
    · exact absurd hy (by simp)

/-! ### Leaving -/

/-- Whoever stands elsewhere is not in the queue. -/
theorem owner_ne_of_task (hs : Layout place s) (ht : t ∈ s.tasks) (hi : place i ≠ .queue t) :
    t.owner ≠ i := by
  rintro rfl
  exact hi (hs.queue t ht)

/-- Whoever stands elsewhere is not in front of a lock. -/
theorem owner_ne_of_waiting (hs : Layout place s) {l : Nat} (ht : t ∈ (s.lock l).waiting)
    (hi : place i ≠ .lock l t) : t.owner ≠ i := by
  rintro rfl
  exact hi (hs.lock l t ht)

/-- Whoever stands elsewhere does not sleep. -/
theorem owner_ne_of_asleep (hs : Layout place s) {n : Nat} (ht : s.asleep.get? n = some t)
    (hi : place i ≠ .asleep n t) : t.owner ≠ i := by
  rintro rfl
  exact hi (hs.sleeper n t ht).2

/-- The first task of the queue is taken. -/
theorem dequeue (hs : Layout place s) {rest : List (Ready Reply)}
    (hready : s.ready = .task t :: rest) :
    Layout (Function.update place t.owner .running) { s with ready := rest } := by
  have htasks : s.tasks = t :: rest.filterMap Ready.task? := by
    simp [Session.tasks, hready, Ready.task?]
  have hplace : place t.owner = .queue t := hs.queue t (by simp [htasks])
  have hnodup := hs.nodup
  rw [htasks, List.map_cons, List.nodup_cons] at hnodup
  have hne : ∀ t' ∈ rest.filterMap Ready.task?, t'.owner ≠ t.owner := fun t' ht' howner =>
    hnodup.1 (howner ▸ List.mem_map_of_mem ht')
  refine hs.remove (x := .running) rfl ?_ hne (fun t' ht' howner => ?_) (fun l t' ht' =>
    ⟨ht', hs.owner_ne_of_waiting ht' (by simp [hplace])⟩) (Nat.le_refl _)
    (fun n y hy => ⟨hy, by simp [hplace]⟩) (fun j n y _ hj => hs.children j n y hj) (Nat.le_refl _)
    (fun n t' ht' => ⟨ht', hs.owner_ne_of_asleep ht' (by simp [hplace])⟩)
    (fun j n t' _ hj => (hs.sleepers j n t' hj).1)
    fun n y hy hnoted => ⟨y, hy, hnoted, rfl, by simp [hplace]⟩
  · rw [htasks]
    exact List.sublist_cons_self _ _
  · rw [htasks, List.mem_cons] at ht'
    rcases ht' with rfl | ht'
    · exact absurd rfl howner
    · exact ht'

/-- The first task in front of a lock is taken. -/
theorem pop (hs : Layout place s) {l : Nat} {rest : List (Task Reply)}
    (hwaiting : (s.lock l).waiting = t :: rest)
    (hnodup : ((s.lock l).waiting.map Prog.owner).Nodup) :
    Layout (Function.update place t.owner .nowhere) (s.setLock l ⟨true, rest⟩) := by
  have hplace : place t.owner = .lock l t := hs.lock l t (by simp [hwaiting])
  rw [hwaiting, List.map_cons, List.nodup_cons] at hnodup
  refine hs.remove (x := .nowhere) rfl (.refl _)
    (fun t' ht' => hs.owner_ne_of_task ht' (by simp [hplace])) (fun t' ht' _ => ht')
    (fun l' t' ht' => ?_) (Nat.le_refl _) (fun n y hy => ⟨hy, by simp [hplace]⟩)
    (fun j n y _ hj => hs.children j n y hj) (Nat.le_refl _)
    (fun n t' ht' => ⟨ht', hs.owner_ne_of_asleep ht' (by simp [hplace])⟩)
    (fun j n t' _ hj => (hs.sleepers j n t' hj).1)
    fun n y hy hnoted => ⟨y, hy, hnoted, rfl, by simp [hplace]⟩
  · rw [Session.lock_setLock] at ht'
    split at ht'
    · next hl =>
      subst hl
      refine ⟨by rw [hwaiting]; exact List.mem_cons_of_mem _ ht', fun howner => ?_⟩
      exact hnodup.1 (howner ▸ List.mem_map_of_mem ht')
    · next hl =>
      refine ⟨ht', hs.owner_ne_of_waiting ht' ?_⟩
      rw [hplace]
      exact fun h => hl (Station.lock.inj h).1.symm

/-- A child process has ended. -/
theorem release (hs : Layout place s) {n : Nat} {x : HeldCall Reply} (hi : place i = .child n x)
    (hone : ∀ j y, place j = .child n y → j = i) :
    Layout (Function.update place i .nowhere) { s with held := s.held.erase n } := by
  refine hs.remove (x := .nowhere) rfl (.refl _)
    (fun t ht => hs.owner_ne_of_task ht (by simp [hi])) (fun t ht _ => ht)
    (fun l t ht => ⟨ht, hs.owner_ne_of_waiting ht (by simp [hi])⟩) (Nat.le_refl _)
    (fun m y hy => ?_) (fun j m y hji hj => ?_) (Nat.le_refl _)
    (fun m t ht => ⟨ht, hs.owner_ne_of_asleep ht (by simp [hi])⟩)
    (fun j m t _ hj => (hs.sleepers j m t hj).1)
    fun m y hy hnoted => ⟨y, hy, hnoted, rfl, by simp [hi]⟩
  · rw [Assoc.get?_erase] at hy
    split at hy
    · exact absurd hy (by simp)
    · next hm =>
      refine ⟨hy, fun hi' => hm ?_⟩
      rw [hi] at hi'
      cases hi'
      rfl
  · rw [Assoc.get?_erase, if_neg]
    · exact hs.children j m y hj
    · rintro rfl
      exact hji (hone j y hj)

/-- A task that sleeps is woken. -/
theorem wake (hs : Layout place s) {n : Nat} (ht : s.asleep.get? n = some t) :
    Layout (Function.update place t.owner .running) { s with asleep := s.asleep.erase n } := by
  have hplace := (hs.sleeper n t ht).2
  refine hs.remove (x := .running) rfl (.refl _)
    (fun t' ht' => hs.owner_ne_of_task ht' (by simp [hplace])) (fun t' ht' _ => ht')
    (fun l t' ht' => ⟨ht', hs.owner_ne_of_waiting ht' (by simp [hplace])⟩) (Nat.le_refl _)
    (fun m y hy => ⟨hy, by simp [hplace]⟩) (fun j m y _ hj => hs.children j m y hj) (Nat.le_refl _)
    (fun m t' ht' => ?_) (fun j m t' hji hj => ?_)
    fun m y hy hnoted => ⟨y, hy, hnoted, rfl, by simp [hplace]⟩
  · rw [Assoc.get?_erase] at ht'
    split at ht'
    · exact absurd ht' (by simp)
    · next hm =>
      refine ⟨ht', hs.owner_ne_of_asleep ht' fun hi => hm ?_⟩
      rw [hplace] at hi
      exact (Station.asleep.inj hi).1.symm
  · obtain ⟨hm, rfl⟩ := hs.sleepers j m t' hj
    rw [Assoc.get?_erase, if_neg]
    · exact hm
    · rintro rfl
      exact hji (congrArg Prog.owner (Option.some.inj (hm.symm.trans ht)))

/-- The last job of a batch has been noted. -/
theorem noted (hs : Layout place s) {n : Nat} {x y : Batch Reply} (hi : place i = .batch n x.resume)
    (hy : y.results.length ≤ y.noted) :
    Layout (Function.update place i .nowhere) { s with batches := s.batches.set n y } := by
  refine hs.remove (x := .nowhere) rfl (.refl _)
    (fun t ht => hs.owner_ne_of_task ht (by simp [hi])) (fun t ht _ => ht)
    (fun l t ht => ⟨ht, hs.owner_ne_of_waiting ht (by simp [hi])⟩) (Nat.le_refl _)
    (fun m z hz => ⟨hz, by simp [hi]⟩)
    (fun j m z hji hj => hs.children j m z hj) (Nat.le_refl _)
    (fun m t ht => ⟨ht, hs.owner_ne_of_asleep ht (by simp [hi])⟩)
    (fun j m t _ hj => (hs.sleepers j m t hj).1) fun m z hz hnoted => ?_
  · simp only [List.getElem?_set] at hz
    split at hz
    · split at hz
      · cases hz
        omega
      · exact absurd hz (by simp)
    · next hm =>
      refine ⟨z, hz, hnoted, rfl, fun hi' => hm ?_⟩
      rw [hi, Station.batch.injEq] at hi'
      exact hi'.1

end Layout

end Overseer
