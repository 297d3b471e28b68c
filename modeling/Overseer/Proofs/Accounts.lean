import Overseer.Proofs.Heedful
import Overseer.Proofs.Stopping

set_option autoImplicit false

/-! # Daemons that are accounted for

The mark of a handle says whether a daemon may be running. As long as a workspace stays registered
and always has the same status file, a mark that is down can be relied on: every process that was
to leave a daemon running could not be started, or was followed by a process that stopped or killed
the daemon, or by a recovery that has come to its end (`Accounted`).

What a task does to the mark is known from its story (`Excused`). The accounts of all tasks are put
together along the history: whoever leaves the mark down has found it down, or has settled the
accounts itself. That the handle stays the same one is what makes this work: whoever waits finds
the mark of the handle that it knows (`Accord.Dutiful.kept`). -/

namespace Overseer

open History Chronicle

variable {h h' : History} {s s' s₀ b : State} {k : String} {n id : Nat} {i : TaskId} {path : Path}

/-! ## A workspace that stays as it is -/

/-- A workspace that is registered once at most and not removed, and whose handle is found with one
status file. -/
structure State.Stable (s : State) (n : Nat) (k : String) (path : Path) : Prop where
  key : n < s.registrations.length → s.key n = k
  only : ∀ n' < s.registrations.length, s.key n' = k → n' = n
  kept : ¬ s.Dropped k
  file : n < s.registrations.length → ∀ id s', Daemon.Found s n id s' →
    (s'.handle id).statusFile = path

/-- Whenever others could go on, a workspace was stable. -/
def History.Lasting (h : History) (n : Nat) (k : String) (path : Path) : Prop :=
  ∀ m ∈ h, m.atRest = true → m.state.Stable n k path

/-- The handle on file has some status file. -/
def State.HasFile (s : State) (k : String) (path : Path) : Prop :=
  ∀ id, s.handleOf.get? k = some id → (s.handle id).statusFile = path

theorem History.Lasting.of_suffix (hh : h'.Lasting n k path) (hsuffix : h <:+ h') :
    h.Lasting n k path := fun m hm => hh m (hsuffix.subset hm)

theorem History.Lasting.of_cons {m : Moment} (hh : Lasting (m :: h) n k path) :
    h.Lasting n k path := hh.of_suffix (List.suffix_cons m h)

namespace State.Stable

variable {r : Remit}

/-- A handle that comes on file has the status file with which it will be found. -/
theorem hasFile (hb : b.Stable n k path) (hs : s.Stable n k path) (hsound : b.HandlesSound)
    (htouches : b.Touches r s) (hfile : b.HasFile k path) : s.HasFile k path := by
  intro id hid
  by_cases hk : r.key? = some k
  · have hsome : r.key? ≠ none := by simp [hk]
    rcases htouches.entry hsound hk hid with hold | ⟨-, n', hn', hkey, configured, hc, hfollows⟩
    · obtain ⟨started, hpaths⟩ := htouches.handlesLater.paths id (hsound.valid k id hold)
      rw [hpaths]
      exact hfile id hold
    · obtain rfl := hb.only n' hn' hkey
      have hn : n' < s.registrations.length := by rwa [(htouches.workspaces hsome).1]
      refine hs.file hn id s (Daemon.found_of_fits ⟨by rwa [hs.key hn], configured, ?_, ?_⟩)
      · exact (htouches.configured hsome n').trans hc
      · intro p hp
        obtain rfl := Option.mem_def.1 hp
        exact hfollows
  · rw [htouches.handleOf_of_ne hk] at hid
    rw [htouches.handle_of_ne hsound hk hid]
    exact hfile id hid

/-- Whoever finds the handle of such a workspace on file, or none, finds it as it was before. -/
theorem reserved (hb : b.Stable n k path) (hs : s.Stable n k path) (hsound : b.HandlesSound)
    (htouches : b.Touches r s) (hfile : b.HasFile k path) (hid : s.Reserved k id) :
    b.Reserved k id := by
  have hlength := htouches.handlesLater.length
  by_cases hk : r.key? = some k
  · rcases hid with hid | ⟨hnone, hle⟩
    · rcases htouches.entry hsound hk hid with hold | ⟨hge, n', hn', hkey, configured, hc, hfollows⟩
      · exact .inl hold
      · -- a handle that comes on file has the same status file as one that was on file
        refine .inr ⟨Option.eq_none_iff_forall_ne_some.2 fun id' hid' => ?_, hge⟩
        obtain rfl := hb.only n' hn' hkey
        have hsame := hb.hasFile hs hsound htouches hfile id hid
        have hstays := htouches.on_file hsound hk hs.kept hb.only hid' fun _ configured' hc' => by
          obtain rfl : configured' = configured := by simpa [hc] using hc'.symm
          intro p hp
          obtain rfl := Option.mem_def.1 hp
          rw [hfile id' hid', ← hsame]
          exact hfollows
        obtain rfl := Option.some.inj (hid.symm.trans hstays)
        exact absurd (hsound.valid k id hid') (Nat.not_lt_of_ge hge)
    · refine .inr ⟨?_, Nat.le_trans hlength hle⟩
      by_contra hold
      exact htouches.some_on_file hk hs.kept hold hnone
  · rw [Reserved, htouches.handleOf_of_ne hk] at hid
    exact hid.imp_right fun hnew => ⟨hnew.1, Nat.le_trans hlength hnew.2⟩

end State.Stable

/-! ## Handles that stay on file -/

/-- No handles have been given out. -/
def State.Unused (s : State) : Prop := ∀ k, s.handleOf.get? k = none

theorem State.Unused.handlesSound (hs : s.Unused) : s.HandlesSound where
  valid k id hid := absurd ((hs k).symm.trans hid) (by simp)
  apart k k' id hid := absurd ((hs k).symm.trans hid) (by simp)

namespace Accord.Dutiful

/-- The handle on file has always had the same status file. -/
theorem hasFile (h₀ : s₀.Unused) (hb : heedful.Dutiful s₀ [] b h) (hh : h.Lasting n k path) :
    b.HasFile k path := by
  have hgone : ∀ {h : History} {b s : State} {t : Task Reply} {i : TaskId} {m : Moment},
      heedful.Dutiful s₀ [] b h → h.underway? = some (i, b) →
      (∃ d, heedful.goesOn i t (h.story i) d s) → Lasting (m :: h) n k path →
      m.state = s → m.atRest = true → (h.Lasting n k path → b.HasFile k path) →
      s.HasFile k path := by
    rintro h b s t i m hb hrun ⟨d, r, ht⟩ hh rfl hrest ih
    have htouches := ht.touches
    rw [start_of_underway? hrun] at htouches
    exact (hh.of_cons _ (mem_of_underway? hrun) rfl).hasFile (hh m List.mem_cons_self hrest)
      (hb.handlesLater.sound h₀.handlesSound) htouches (ih hh.of_cons)
  induction hb with
  | nil => exact fun id hid => absurd ((h₀ k).symm.trans hid) (by simp)
  | asked i r hb hnew ih => exact ih hh.of_cons
  | resumed i hb ih => exact ih hh.of_cons
  | spawned i c hb hrun hgo ih =>
    obtain ⟨k', hgo⟩ := hgo
    exact hgone hb hrun hgo hh rfl rfl ih
  | refused i c e hb hrun hgo ih =>
    obtain ⟨k', hgo⟩ := hgo
    exact hgone hb hrun hgo hh.of_cons.of_cons rfl rfl ih
  | outside w hb ih => exact ih hh
  | returned i e w hb ih => exact ih hh.of_cons
  | slept i ms hb hrun hgo ih | reached i l hb hrun hgo ih | gathered i jobs hb hrun hgo ih =>
    obtain ⟨k', hgo⟩ := hgo
    exact hgone hb hrun hgo hh rfl rfl ih
  | entered i l hb ih | left i l hb hrun hgo ih => exact ih hh.of_cons
  | ended i f hb hrun hgo ih => exact hgone hb hrun hgo hh rfl rfl ih

/-- Whoever goes on finds the handle as it was when it went on before. -/
theorem reserved {t : Task Reply} {r : Remit} (h₀ : s₀.Unused) (hb : heedful.Dutiful s₀ [] b h)
    (hh : h.Lasting n k path) (hrun : h.underway? = some (i, b))
    (ht : t.Heedful r i (h.story i) s) (hs : s.Stable n k path) (hid : s.Reserved k id) :
    b.Reserved k id := by
  have htouches := ht.touches
  rw [start_of_underway? hrun] at htouches
  exact (hh _ (mem_of_underway? hrun) rfl).reserved hs
    (hb.handlesLater.sound h₀.handlesSound) htouches (hb.hasFile h₀ hh) hid

/-- The handle that is on file has been on file all the time, since it came there. -/
theorem kept (h₀ : s₀.Unused) (hb : heedful.Dutiful s₀ [] b h) (hh : h.Lasting n k path)
    (hid : b.Reserved k id) : h.Fixed k id := by
  have hcons : ∀ {m : Moment} {h : History}, (m.atRest = true → m.state.Reserved k id) →
      h.Fixed k id → Fixed (m :: h) k id := fun hm hh => List.forall_mem_cons.2 ⟨hm, hh⟩
  have hgone : ∀ {h : History} {b s : State} {t : Task Reply} {i : TaskId} {m : Moment},
      heedful.Dutiful s₀ [] b h → h.underway? = some (i, b) →
      (∃ d, heedful.goesOn i t (h.story i) d s) → Lasting (m :: h) n k path →
      m.state = s → m.atRest = true → s.Reserved k id →
      (h.Lasting n k path → b.Reserved k id → h.Fixed k id) → Fixed (m :: h) k id := by
    rintro h b s t i m hb hrun ⟨d, r, ht⟩ hh rfl hrest hid ih
    exact hcons (fun _ => hid) (ih hh.of_cons
      (hb.reserved h₀ hh.of_cons hrun ht (hh m List.mem_cons_self hrest) hid))
  induction hb with
  | nil => exact fun m hm => absurd hm (by simp)
  | asked i r hb hnew ih => exact hcons (fun _ => hid) (ih hh.of_cons hid)
  | resumed i hb ih => exact hcons (fun _ => hid) (ih hh.of_cons hid)
  | spawned i c hb hrun hgo ih =>
    obtain ⟨k', hgo⟩ := hgo
    exact hgone hb hrun hgo hh rfl rfl hid ih
  | refused i c e hb hrun hgo ih =>
    obtain ⟨k', hgo⟩ := hgo
    exact hcons (fun _ => hid) (hcons (fun _ => hid)
      (hgone hb hrun hgo hh.of_cons.of_cons rfl rfl hid ih))
  | outside w hb ih => exact ih hh hid
  | returned i e w hb ih => exact hcons (fun _ => hid) (ih hh.of_cons hid)
  | slept i ms hb hrun hgo ih | reached i l hb hrun hgo ih | gathered i jobs hb hrun hgo ih =>
    obtain ⟨k', hgo⟩ := hgo
    exact hgone hb hrun hgo hh rfl rfl hid ih
  | entered i l hb ih | left i l hb hrun hgo ih =>
    exact hcons (fun hrest => absurd hrest (by simp [Moment.atRest])) (ih hh.of_cons hid)
  | ended i f hb hrun hgo ih => exact hgone hb hrun hgo hh rfl rfl hid ih

end Accord.Dutiful

/-! ## Accounts -/

/-- Whether a task may be about to repeat a command: it pauses, or it gives one that leaves a daemon
running. -/
def Happening.repeats : Happening → Bool
  | slept _ => true
  | spawned c => c.starts
  | _ => false

namespace History

/-- The accounts of a workspace are settled: a task about it goes on after it has stopped or killed
the daemon; or its recovery of a daemon that was stuck and could not be killed has come to its end,
where there is no status file any more and the task is about to repeat its command. -/
def Settles (n : Nat) : History → Prop
  | [] => False
  | m :: h => (story (m :: h) m.who).subject? = some n ∧
      (Closes (story (m :: h) m.who) ∨
        m.what.repeats = true ∧ Cleared (m.state.key n) (story h m.who) m.state)

/-- Every process for a workspace that was to leave a daemon running could not be started, or the
accounts were settled afterwards. -/
def Accounted (n : Nat) (h : History) : Prop :=
  ∀ i c s (past : History), ⟨i, .spawned c, s⟩ :: past <:+ h → c.starts = true →
    (past.story i).subject? = some n →
    (∃ e, ⟨i, .returned (.error e), s⟩ :: ⟨i, .spawned c, s⟩ :: past <:+ h) ∨
      ∃ m h', m :: h' <:+ h ∧ ⟨i, .spawned c, s⟩ :: past <:+ h' ∧ Settles n (m :: h')

variable {m : Moment}

/-- The accounts stay as they are unless a process is started. -/
theorem Accounted.cons (hh : h.Accounted n) (hm : ∀ c, m.what = .spawned c → c.starts = true →
    (h.story m.who).subject? ≠ some n) : Accounted n (m :: h) := by
  intro i c s past hpast hc hsubject
  have hmono := List.suffix_cons m h
  rcases List.suffix_cons_iff.1 hpast with heq | hpast
  · cases heq
    exact absurd hsubject (hm c rfl hc)
  · rcases hh i c s past hpast hc hsubject with ⟨e, he⟩ | ⟨m', h', hm', hpast', hsettles⟩
    · exact .inl ⟨e, he.trans hmono⟩
    · exact .inr ⟨m', h', hm'.trans hmono, hpast', hsettles⟩

theorem accounted_of_settles (hm : ∀ c, m.what ≠ .spawned c) (hh : Settles n (m :: h)) :
    Accounted n (m :: h) := by
  intro i c s past hpast hc hsubject
  rcases List.suffix_cons_iff.1 hpast with heq | hpast
  · cases heq
    exact absurd rfl (hm c)
  · exact .inr ⟨m, h, List.suffix_refl _, hpast, hh⟩

/-- A process that could not be started changes nothing about accounts that were in order, or that
it has settled itself. -/
theorem accounted_refused (c : Call) (e : Fault)
    (hh : h.Accounted n ∨ Settles n (⟨i, .spawned c, s⟩ :: h)) :
    Accounted n (h.back i c (.error e) s s s) := by
  intro i' c' s' past hpast hc hsubject
  have hmono : ⟨i, .spawned c, s⟩ :: h <:+ h.back i c (.error e) s s s := ⟨[_, _], rfl⟩
  rcases List.suffix_cons_iff.1 hpast with heq | hpast
  · cases heq
  rcases List.suffix_cons_iff.1 hpast with heq | hpast
  · cases heq
  rcases List.suffix_cons_iff.1 hpast with heq | hpast
  · cases heq
    exact .inl ⟨e, List.suffix_cons _ _⟩
  rcases hh with hh | hh
  · rcases hh i' c' s' past hpast hc hsubject with ⟨e', he'⟩ | ⟨m', h', hm', hpast', hsettles⟩
    · exact .inl ⟨e', he'.trans (suffix_back i c (.error e) s s s h)⟩
    · exact .inr ⟨m', h', hm'.trans (suffix_back i c (.error e) s s s h), hpast', hsettles⟩
  · exact .inr ⟨_, h, hmono, hpast, hh⟩

/-- What a task has to do with locks is no excuse for a mark that is down. -/
theorem Excused.of_cons (hm : m.atRest = false) (hh : Excused k id (m :: h)) : Excused k id h := by
  obtain ⟨i, what, s⟩ := m
  cases what with
  | left l =>
    cases hh with
    | down hstart => exact .down hstart
    | closed hclosed => exact False.elim hclosed
    | left _ _ _ hh => exact hh
  | entered l =>
    cases hh with
    | down hstart => exact .down hstart
    | closed hclosed => exact False.elim hclosed
  | _ => exact absurd hm (by simp [Moment.atRest])

theorem underway?_cons (hm : m.atRest = false) : underway? (m :: h) = h.underway? := by
  obtain ⟨i, what, s⟩ := m
  cases what with
  | left | entered => rfl
  | _ => exact absurd hm (by simp [Moment.atRest])

theorem subject?_cons_of_not_atRest (hm : m.atRest = false) :
    subject? (m :: h) = h.subject? := by
  obtain ⟨i, what, s⟩ := m
  cases what with
  | left | entered => rfl
  | _ => exact absurd hm (by simp [Moment.atRest])

end History

/-- A refusal is not left alone: whose process could not be started goes on at once. -/
theorem Accord.Dutiful.not_refused (hb : heedful.Dutiful s₀ [] b h) (i : TaskId) (e : Fault)
    (s : State) (past : History) : h.story i ≠ ⟨i, .returned (.error e), s⟩ :: past := by
  have hcons : ∀ {m : Moment} {h : History}, (∀ e, m.what ≠ .returned (.error e)) →
      h.story i ≠ ⟨i, .returned (.error e), s⟩ :: past →
      story (m :: h) i ≠ ⟨i, .returned (.error e), s⟩ :: past := by
    intro m h hm hh
    rw [story_cons]
    split
    · rintro heq
      cases heq
      exact hm e rfl
    · exact hh
  induction hb with
  | nil => exact fun heq => absurd heq (by simp [story])
  | refused j c e' hb hrun hgo ih =>
    by_cases hj : j = i
    · subst hj
      rw [story_cons, if_pos rfl]
      intro heq
      cases heq
    · rw [story_cons_of_ne _ hj, story_cons_of_ne _ hj, story_cons_of_ne _ hj]
      exact ih
  | outside w hb ih => exact ih
  | _ =>
    rename_i ih
    exact hcons (by simp) ih

/-- A task that keeps to its remit is about a workspace if and only if the remit says so. -/
theorem Prog.Heedful.subject_iff {t : Task Reply} {r : Remit} (ht : t.Heedful r i h s)
    (hstart : h.start.Stable n k path) : h.subject? = some n ↔ r.key? = some k := by
  constructor
  · intro hn
    obtain ⟨hlt, hk⟩ := ht.scope.key n hn
    rw [hk, hstart.key hlt]
  · intro hk
    obtain ⟨n', hn'⟩ := Option.ne_none_iff_exists'.1 (ht.scope.subject (by simp [hk]))
    obtain ⟨hlt, hk'⟩ := ht.scope.key n' hn'
    rw [hn', hstart.only n' hlt (Option.some.inj (hk'.symm.trans hk))]

/-- The accounts at some moment: they are in order if the mark is down, and if a task that is
underway has an excuse for a mark that is down. -/
structure Accords (n : Nat) (k : String) (b : State) (h : History) : Prop where
  resting : ∀ id, b.Reserved k id → b.started id = false → h.Accounted n
  underway : ∀ i b', h.underway? = some (i, b') → (h.story i).subject? = some n →
    ∀ id, b.Reserved k id → Excused k id (h.story i) → h.Accounted n

/-- Whoever waits or ends and leaves the mark down has found the accounts in order. -/
theorem Accords.gone {t : Task Reply} {what : Happening} {r : Remit} (h₀ : s₀.Unused)
    (hb : heedful.Dutiful s₀ [] b h) (hh : h.Lasting n k path)
    (hrun : h.underway? = some (i, b)) (ht : t.Heedful r i (h.story i) s)
    (hduty : (tidiness r).duty (h.story i) s what) (hs : s.Stable n k path)
    (haccords : Accords n k b h) (hid : s.Reserved k id) (hdown : s.started id = false) :
    Accounted n (⟨i, what, s⟩ :: h) := by
  have hstart := start_of_underway? hrun
  have htouches := ht.touches
  have hstable := hh _ (mem_of_underway? hrun) rfl
  have hsubject := ht.subject_iff (hstart.symm ▸ hstable)
  rw [hstart] at htouches
  have hsound := hb.handlesLater.sound h₀.handlesSound
  have hbefore := hb.reserved h₀ hh hrun ht hs hid
  by_cases hk : r.key? = some k
  · have hfixed : (h.story i).Fixed k id := fun m hm =>
      hb.kept h₀ hh hbefore m (List.mem_of_mem_filter hm)
    have hn := hsubject.2 hk
    obtain ⟨hmarked, hspawn⟩ := hduty k hk
    rcases hmarked.marks id hfixed hid hdown with hexcused | ⟨⟨ms, rfl⟩, hcleared⟩
    · refine (haccords.underway i b hrun hn id hbefore hexcused).cons fun c hwhat hc => ?_
      rw [hspawn c hwhat hc id hfixed hid] at hdown
      exact absurd hdown (by simp)
    · -- the task has just cleared away a daemon
      have hkey := hs.key (ht.key hn).1
      refine accounted_of_settles (by simp) ⟨?_, .inr ⟨rfl, hkey.symm ▸ hcleared⟩⟩
      rw [story_cons, if_pos rfl]
      exact hn
  · -- another task leaves the handle alone
    have hfound : b.started id = false := by
      rcases hbefore with hentry | ⟨-, hle⟩
      · rw [State.started, ← htouches.handle_of_ne hsound hk hentry]
        exact hdown
      · exact State.started_of_length_le hle
    exact (haccords.resting id hbefore hfound).cons fun c _ _ hn => hk (hsubject.1 hn)

/-- The accounts after somebody has waited or ended. -/
theorem Accords.pause {m : Moment} (hm : m.what.isPause = true)
    (hresting : ∀ id, s.Reserved k id → s.started id = false → Accounted n (m :: h)) :
    Accords n k s (m :: h) := by
  refine ⟨hresting, fun j b' hrun => ?_⟩
  obtain ⟨who, what, state⟩ := m
  cases what with
  | spawned | slept | reached | gathered | ended => exact absurd hrun (by simp [underway?])
  | _ => exact absurd hm (by simp [Happening.isPause])

/-- Somebody is given a lock or gives it back. -/
theorem Accords.cons {m : Moment} (haccords : Accords n k b h) (hm : m.atRest = false) :
    Accords n k b (m :: h) := by
  have hspawned : ∀ c, m.what ≠ .spawned c := by
    intro c hc
    simp [Moment.atRest, hc] at hm
  refine ⟨fun id hid hdown => (haccords.resting id hid hdown).cons fun c hc =>
    absurd hc (hspawned c), fun j b' hrun hsubject id hid hexcused => ?_⟩
  rw [underway?_cons hm] at hrun
  refine Accounted.cons ?_ fun c hc => absurd hc (hspawned c)
  rw [story_cons] at hsubject hexcused
  split at hsubject
  · next hj =>
    rw [if_pos hj] at hexcused
    rw [subject?_cons_of_not_atRest hm] at hsubject
    exact haccords.underway j b' hrun hsubject id hid (hexcused.of_cons hm)
  · next hj =>
    rw [if_neg hj] at hexcused
    exact haccords.underway j b' hrun hsubject id hid hexcused

/-- Somebody goes on. -/
theorem Accords.resumed (hb : heedful.Dutiful s₀ [] b h) (haccords : Accords n k b h)
    (i : TaskId) : Accords n k b (⟨i, .resumed, b⟩ :: h) := by
  have hresting : ∀ id, b.Reserved k id → b.started id = false →
      Accounted n (⟨i, .resumed, b⟩ :: h) := fun id hid hdown =>
    (haccords.resting id hid hdown).cons (by simp)
  refine ⟨hresting, fun j b' hrun hsubject id hid hexcused => ?_⟩
  cases hrun
  have hstory : story (⟨i, .resumed, b⟩ :: h) i = ⟨i, .resumed, b⟩ :: h.story i := by
    rw [story_cons, if_pos rfl]
  rw [hstory] at hexcused
  generalize hpast : h.story i = past at hexcused
  cases hexcused with
  | down hstart => exact hresting id hid hstart
  | closed hclosed =>
    refine accounted_of_settles (by simp) ⟨hsubject, .inl ?_⟩
    rw [hstory, hpast]
    exact hclosed
  | refused _ c e _ _ => exact absurd hpast (hb.not_refused i e b _)
  | repeated _ c e _ _ _ => exact absurd hpast (hb.not_refused i e b _)

/-- Somebody whose process could not be started goes on at once. -/
theorem Accords.refused (haccords : Accords n k b h) (c : Call) (e : Fault)
    (hrun : h.underway? = some (i, b)) (hbegan : (h.story i).began?.isSome = true)
    (hresting : ∀ id, s.Reserved k id → s.started id = false →
      Accounted n (⟨i, .spawned c, s⟩ :: h))
    (hbefore : ∀ id, s.Reserved k id → b.Reserved k id)
    (hkey : (h.story i).subject? = some n → s.key n = k) :
    Accords n k s (h.back i c (.error e) s s s) := by
  have hdown : ∀ id, s.Reserved k id → s.started id = false →
      Accounted n (h.back i c (.error e) s s s) := fun id hid hdown =>
    ((hresting id hid hdown).cons (by simp)).cons (by simp)
  have hstory : story (h.back i c (.error e) s s s) i = (h.story i).back i c (.error e) s s s := by
    simp [story_cons]
  refine ⟨hdown, fun j b' hrun' hsubject id hid hexcused => ?_⟩
  cases hrun'
  rw [hstory] at hexcused
  have hn : (h.story i).subject? = some n := by
    rw [hstory] at hsubject
    exact (subject?_resumed (h := ⟨i, .returned (.error e), s⟩ :: ⟨i, .spawned c, s⟩ :: h.story i)
      i s hbegan).symm.trans hsubject
  generalize hpast : h.story i = past at hexcused
  cases hexcused with
  | down hstart => exact hdown id hid hstart
  | closed hclosed =>
    refine accounted_of_settles (by simp) ⟨hsubject, .inl ?_⟩
    rw [hstory, hpast]
    exact hclosed
  | refused _ _ _ _ hh =>
    exact accounted_refused c e (.inl (haccords.underway i b hrun hn id (hbefore id hid)
      (hpast ▸ hh)))
  | repeated _ _ _ _ hc hh =>
    refine accounted_refused c e (.inr ⟨?_, .inr ⟨hc, hkey hn ▸ hpast ▸ hh⟩⟩)
    rw [story_cons, if_pos rfl]
    exact hn

theorem Accord.Dutiful.accords (h₀ : s₀.Unused) (hb : heedful.Dutiful s₀ [] b h)
    (hh : h.Lasting n k path) : Accords n k b h := by
  induction hb with
  | nil => exact ⟨fun _ _ _ i c s past hpast => absurd (List.suffix_nil.1 hpast) (by simp),
      fun i b' hrun => absurd hrun (by simp [underway?])⟩
  | asked i r hb hnew ih =>
    exact ⟨fun id hid hdown => ((ih hh.of_cons).resting id hid hdown).cons (by simp),
      fun j b' hrun => absurd hrun (by simp [underway?])⟩
  | resumed i hb ih => exact (ih hh.of_cons).resumed hb i
  | spawned i c hb hrun hgo ih =>
    obtain ⟨k', d, r, ht⟩ := hgo
    exact .pause rfl fun id hid hdown => (ih hh.of_cons).gone h₀ hb hh.of_cons hrun ht ht.heeds.1
      (hh _ List.mem_cons_self rfl) hid hdown
  | @refused b s h i c e hb hrun hgo ih =>
    obtain ⟨k', d, r, ht⟩ := hgo
    have hlast : h.Lasting n k path := hh.of_cons.of_cons.of_cons
    have hs : s.Stable n k path := hh _ List.mem_cons_self rfl
    refine (ih hlast).refused c e hrun ht.scope.began (fun id hid hdown =>
      (ih hlast).gone h₀ hb hlast hrun ht ht.heeds.1 hs hid hdown)
      (fun id hid => hb.reserved h₀ hlast hrun ht hs hid) fun hn => hs.key (ht.key hn).1
  | outside w hb ih => exact ⟨(ih hh).resting, (ih hh).underway⟩
  | returned i e w hb ih =>
    exact ⟨fun id hid hdown => ((ih hh.of_cons).resting id hid hdown).cons (by simp),
      fun j b' hrun => absurd hrun (by simp [underway?])⟩
  | slept i ms hb hrun hgo ih | reached i l hb hrun hgo ih | gathered i jobs hb hrun hgo ih =>
    obtain ⟨k', d, r, ht⟩ := hgo
    exact .pause rfl fun id hid hdown => (ih hh.of_cons).gone h₀ hb hh.of_cons hrun ht ht.heeds.1
      (hh _ List.mem_cons_self rfl) hid hdown
  | entered i l hb ih | left i l hb hrun hgo ih => exact (ih hh.of_cons).cons rfl
  | ended i f hb hrun hgo ih =>
    obtain ⟨d, r, ht⟩ := hgo
    exact .pause rfl fun id hid hdown => (ih hh.of_cons).gone h₀ hb hh.of_cons hrun ht ht.heeds
      (hh _ List.mem_cons_self rfl) hid hdown

/-! ## Runs -/

/-- Whenever others could go on, what came later could follow. -/
theorem History.Lawful.later (hlawful : Lawful s₀ b h) :
    ∀ m ∈ h, m.atRest = true → m.state.Later b := by
  -- whoever is underway has gone on in the state at the last wait
  have hstep : ∀ {m : Moment} {h : History} {b s : State}, m.state = s → b.Later s →
      (∀ m ∈ h, m.atRest = true → m.state.Later b) →
      ∀ m' ∈ m :: h, m'.atRest = true → m'.state.Later s := by
    rintro m h b s rfl hs ih m' hm' hrest
    rcases List.mem_cons.1 hm' with rfl | hm'
    · exact .refl _
    · exact (ih m' hm' hrest).trans hs
  have hskip : ∀ {m : Moment} {h : History} {b : State}, m.atRest = false →
      (∀ m ∈ h, m.atRest = true → m.state.Later b) →
      ∀ m' ∈ m :: h, m'.atRest = true → m'.state.Later b := by
    intro m h b hm ih m' hm' hrest
    rcases List.mem_cons.1 hm' with rfl | hm'
    · rw [hm] at hrest
      exact absurd hrest (by simp)
    · exact ih m' hm' hrest
  induction hlawful with
  | nil => exact fun m hm => absurd hm (by simp)
  | asked i r hb hnew hknown ih | resumed i hb ih => exact hstep rfl (.refl _) ih
  | spawned i c hb hstart hduty ih | reached i l hb hstart hduty ih
  | gathered i jobs hb hstart hduty ih =>
    subst hstart
    exact hstep rfl hduty.1.onward.1 ih
  | slept i ms hb hstart hduty ih =>
    subst hstart
    exact hstep rfl (Calm.onward hduty).1 ih
  | ended i r hb hstart hduty ih =>
    subst hstart
    exact hstep rfl hduty.steady.1.1 ih
  | outside hb hworld ih => exact fun m hm hrest => (ih m hm hrest).trans (.of_core hworld)
  | returned i e hb hworld ih => exact hstep rfl (.of_core hworld) ih
  | entered i l hb hon hfree hfirst ih | left i l hb hstart hduty ih => exact hskip rfl ih

/-- Whoever looks up the handle of a registration finds one status file, whenever others could go
on. -/
def History.OneFile (h : History) (n : Nat) (path : Path) : Prop :=
  ∀ m ∈ h, m.atRest = true → n < m.state.registrations.length →
    ∀ id s', Daemon.Found m.state n id s' → (s'.handle id).statusFile = path

/-- A status file that is configured all the time is the one that is found. -/
theorem History.oneFile_of_configured (hh : ∀ m ∈ h, m.atRest = true →
    n < m.state.registrations.length → m.state.configured n = .ok (some path)) :
    h.OneFile n path := by
  intro m hm hrest hn id s' hfound
  obtain ⟨configured, hconfigured, hpath⟩ := hfound.fits.status
  rw [hfound.world, State.workspace_of_core hfound.core] at hconfigured
  refine hpath path ?_
  simpa using hconfigured.symm.trans (hh m hm hrest hn)

/-- A workspace that is registered and has not been removed was stable all the time. -/
theorem History.Lawful.lasting (h₀ : s₀.Coherent) (hlawful : Lawful s₀ b h)
    (hn : n < b.registrations.length) (hkept : ¬ b.Dropped (b.key n)) (hfile : h.OneFile n path) :
    h.Lasting n (b.key n) path := by
  intro m hm hrest
  have hlater := hlawful.later m hm hrest
  have hcoherent := hlawful.coherent h₀
  have hregistered : ∀ n' < b.registrations.length, b.key n' = b.key n →
      b.registry.get? (b.key n) = some n' := by
    intro n' hn' hkey
    rw [← hkey]
    refine hcoherent.unremoved n' hn' ?_
    by_contra hremoved
    exact hkept ⟨n', hn', by simpa using hremoved, hkey⟩
  refine ⟨fun hlt => (hlater.key n hlt).symm, fun n' hn' hkey => ?_,
    fun hdropped => hkept (hlater.dropped hdropped), hfile m hm hrest⟩
  rw [← hlater.key n' hn'] at hkey
  exact Option.some.inj
    ((hregistered n' (Nat.lt_of_lt_of_le hn' hlater.length) hkey).symm.trans (hregistered n hn rfl))

namespace Daemon

open Op

/-- Where there is no daemon, the mark of the handle on file is down. -/
theorem NoDaemon.reserved (hs : NoDaemon s n) (hstable : s.Stable n k path)
    (hfile : s.HasFile k path) (hn : n < s.registrations.length) :
    ∃ id, s.Reserved k id ∧ s.started id = false := by
  obtain ⟨id, s', hfound, hdown, -⟩ := hs
  have hkey := hstable.key hn
  by_cases hfits : ∃ id', Fits s n id'
  · obtain ⟨id', hid'⟩ := hfits
    obtain rfl := hfound.same id' hid'
    exact ⟨id, .inl (hkey ▸ hfound.entry), hdown⟩
  · cases hid : s.handleOf.get? k with
    | none =>
      exact ⟨_, .inr ⟨hid, Nat.le_refl _⟩, State.started_of_length_le (Nat.le_refl _)⟩
    | some id' =>
      -- a handle with the same status file fits
      obtain ⟨configured, hconfigured, hpath⟩ := hfound.fits.status
      refine absurd ⟨id', hkey ▸ hid, configured, ?_, fun p hp => ?_⟩ hfits
      · rw [← hconfigured, hfound.world, State.workspace_of_core hfound.core]
      · rw [hfile id' hid, ← hstable.file hn id s' hfound]
        exact hpath p hp

/-- In every run, for a workspace that is registered and not removed and that always has the same
status file: whenever the mark of its handle is down, all daemons are accounted for; a daemon is
said to be stopped without a process only if all are accounted for and there is no status file; and
an attempt whose process could not be started leaves marks as they were. -/
theorem daemons_accounted_for (setup : Setup) (moves : List Move) (n : Nat) (path : Path)
    (hn : n < (after setup moves).session.state.registrations.length)
    (hkept : ¬ (after setup moves).session.state.Dropped
      ((after setup moves).session.state.key n))
    (hfile : (after setup moves).history.OneFile n path)
    (m : Moment) (past : History) (hm : m :: past <:+ (after setup moves).history)
    (hwhat : m.what = .resumed ∨ m.what.isPause = true) :
    (∀ id, m.state.handleOf.get? ((after setup moves).session.state.key n) = some id →
      m.state.started id = false → Accounted n (m :: past)) ∧
    (∀ children ds s', n < m.state.registrations.length →
      (stop n).run.play children [] m.state = some (.ok true, ds, s') →
      (∀ d, .started d ∉ ds) → NoDaemon m.state n ∧ Accounted n (m :: past)) ∧
    ∀ (children : Children), children.Quiet → ∀ s id argv command r d e s',
      (attempt n id argv command).run.play children [] s = some (r, [.started d], s') →
      d.answer = .error e → e.cls.isA .os = true → ∀ id', s'.started id' = s.started id' := by
  have hlasting := ((lawful_after setup moves).lasting (coherent_setup setup) hn hkept hfile)
    |>.of_suffix hm
  have hdutiful := (dutiful_after setup moves).suffix hm hwhat
  have haccords := hdutiful.accords (fun _ => rfl) hlasting
  have hrest : m.atRest = true := by
    obtain ⟨i, what, s⟩ := m
    cases what with
    | left | entered => exact absurd hwhat (by simp [Happening.isPause])
    | _ => rfl
  refine ⟨fun id hid hdown => haccords.resting id (.inl hid) hdown,
    fun children ds s' hlt hplay hnone => ?_,
    fun children hquiet s id argv command r d e s' hplay hanswer hos id' => ?_⟩
  · obtain ⟨r', ds', s'', hplay', hstop⟩ :=
      (plays_iff_run _ _).1 (plays_stop children n [] m.state)
    cases hplay.symm.trans hplay'
    obtain ⟨d, hd⟩ | hnot | hidle := hstop
    · exact absurd hd (hnone d)
    · exact absurd rfl hnot
    · obtain ⟨id, hid, hdown⟩ := hidle.reserved (hlasting m List.mem_cons_self hrest)
        (hdutiful.hasFile (fun _ => rfl) hlasting) hlt
      exact ⟨hidle, haccords.resting id hid hdown⟩
  · obtain ⟨r', ds', s'', hplay', hmarks⟩ :=
      (plays_iff_run _ _).1 (plays_attempt_refused hquiet n id argv command s)
    cases hplay.symm.trans hplay'
    exact hmarks d e rfl hanswer hos id'

/-- A daemon is stopped while a check with it goes on. -/
def overtaken : List Move :=
  [.respond [{ held := true }],
    .request (.add "/w" (some (Settings.set {} .statusFile (.str "/x/daemon.json")))), .take,
    .request (.check "/w"), .take, .request (.job (.stop 0)), .take]

/-- Whether the status file of a registration, if there is one yet, is configured to be the one. -/
def usesFile (n : Nat) (path : Path) (s : State) : Bool :=
  s.registrations.length ≤ n || match s.configured n with
    | .ok (some p) => p == path
    | _ => false

theorem configured_of_usesFile (hs : usesFile n path s = true) (hn : n < s.registrations.length) :
    s.configured n = .ok (some path) := by
  have hnot : ¬ s.registrations.length ≤ n := Nat.not_le_of_lt hn
  simp only [usesFile, hnot, decide_false, Bool.false_or] at hs
  split at hs
  · next hconfigured => rw [hconfigured, beq_iff_eq.1 hs]
  · exact absurd hs (by simp)

/-- The mark is down although the check has not come back; its process has been stopped. -/
theorem daemons_accounted_for_when_overtaken :
    ∃ m past, m :: past = (after .small overtaken).history ∧ m.state.started 0 = false ∧
      (after .small overtaken).session.calls.map Call.starts = [true, false] ∧
      (after .small overtaken).session.held.entries.length = 1 ∧ Accounted 0 (m :: past) := by
  have hrun : 0 < (after .small overtaken).session.state.registrations.length ∧
      ¬ (after .small overtaken).session.state.Dropped
        ((after .small overtaken).session.state.key 0) ∧
      (∀ m ∈ (after .small overtaken).history, m.atRest = true →
        usesFile 0 ⟨.root, ["x", "daemon.json"]⟩ m.state = true) ∧
      (after .small overtaken).session.calls.map Call.starts = [true, false] ∧
      (after .small overtaken).session.held.entries.length = 1 := by
    unfold State.Dropped
    decide +kernel
  obtain ⟨hn, hkept, hfile, hcalls, hheld⟩ := hrun
  have hlast : (after .small overtaken).atLast (fun m _ => m.what.isPause &&
      m.state.handleOf.get? ((after .small overtaken).session.state.key 0) == some 0 &&
      !m.state.started 0) = true := by
    decide +kernel
  obtain ⟨m, past, hpast, hm⟩ := exists_of_atLast hlast
  simp only [Bool.and_eq_true, beq_iff_eq, Bool.not_eq_true'] at hm
  obtain ⟨⟨hpause, hid⟩, hdown⟩ := hm
  exact ⟨m, past, hpast, hdown, hcalls, hheld,
    (daemons_accounted_for .small overtaken 0 _ hn hkept
      (oneFile_of_configured fun m hm hrest hn => configured_of_usesFile (hfile m hm hrest) hn)
      m past (hpast ▸ List.suffix_refl _) (.inr hpause)).1 0 hid hdown⟩

end Daemon

end Overseer
