import Overseer.Proofs.Conduct

set_option autoImplicit false

/-! # Lawful histories

What can be read off a lawful history by going through it moment by moment: the tables agree
with each other at every wait, a lock has one holder at a time, everybody asks for a lock once
at most, and locks are given in the order in which they were asked for. -/

namespace Overseer.History

variable {i j : TaskId} {h : History} {s₀ b : State} {l : Nat}

theorem Lawful.coherent (h₀ : s₀.Coherent) (hlawful : Lawful s₀ b h) : b.Coherent := by
  induction hlawful with
  | nil => exact h₀
  | asked i r hb hnew hknown ih => exact ih
  | resumed i hb ih => exact ih
  | spawned i c hb hstart hduty ih => exact hduty.1.coherent
  | slept i ms hb hstart hduty ih => exact hduty.coherent
  | outside hb hworld ih => exact ih.of_core hworld
  | returned i e hb hworld ih => exact ih.of_core hworld
  | reached i l hb hstart hduty ih => exact hduty.1.coherent
  | entered i l hb hon hfree hfirst ih => exact ih
  | left i l hb hstart hduty ih => exact ih
  | gathered i jobs hb hstart hduty ih => exact hduty.1.coherent
  | ended i r hb hstart hduty ih => exact hduty.steady.1.2

/-- What has happened up to some moment is lawful, too. -/
theorem Lawful.suffix {h' : History} (hlawful : Lawful s₀ b h) (hsuffix : h' <:+ h) :
    ∃ b', Lawful s₀ b' h' := by
  have hcons : ∀ {m : Moment} {g : History} {b : State}, h' <:+ m :: g → Lawful s₀ b (m :: g) →
      (h' <:+ g → ∃ b', Lawful s₀ b' h') → ∃ b', Lawful s₀ b' h' := by
    intro m g b hsuffix hlawful ih
    rcases List.suffix_cons_iff.1 hsuffix with rfl | hsuffix
    · exact ⟨b, hlawful⟩
    · exact ih hsuffix
  induction hlawful with
  | nil => exact ⟨s₀, List.suffix_nil.1 hsuffix ▸ .nil⟩
  | asked i r hb hnew hknown ih => exact hcons hsuffix (.asked i r hb hnew hknown) ih
  | resumed i hb ih => exact hcons hsuffix (.resumed i hb) ih
  | spawned i c hb hstart hduty ih => exact hcons hsuffix (.spawned i c hb hstart hduty) ih
  | slept i ms hb hstart hduty ih => exact hcons hsuffix (.slept i ms hb hstart hduty) ih
  | outside hb hworld ih => exact ih hsuffix
  | returned i e hb hworld ih => exact hcons hsuffix (.returned i e hb hworld) ih
  | reached i l hb hstart hduty ih => exact hcons hsuffix (.reached i l hb hstart hduty) ih
  | entered i l hb hon hfree hfirst ih => exact hcons hsuffix (.entered i l hb hon hfree hfirst) ih
  | left i l hb hstart hduty ih => exact hcons hsuffix (.left i l hb hstart hduty) ih
  | gathered i jobs hb hstart hduty ih => exact hcons hsuffix (.gathered i jobs hb hstart hduty) ih
  | ended i r hb hstart hduty ih => exact hcons hsuffix (.ended i r hb hstart hduty) ih

/-- The state at a moment follows the one at the last wait. -/
theorem Lawful.onward {m : Moment} (h₀ : s₀.Coherent) (hlawful : Lawful s₀ b (m :: h)) :
    ∃ b', Lawful s₀ b' (m :: h) ∧ b'.Onward m.state := by
  generalize hpast : m :: h = past at hlawful
  have hrefl : ∀ {b : State} {g : History}, Lawful s₀ b g → ∃ b', Lawful s₀ b' g ∧ b'.Onward b :=
    fun hg => ⟨_, hg, .refl (hg.coherent h₀)⟩
  induction hlawful with
  | nil => exact absurd hpast (by simp)
  | outside hb hworld ih => exact ih hpast
  | asked i r hb hnew hknown =>
    cases hpast
    exact hrefl (.asked i r hb hnew hknown)
  | resumed i hb =>
    cases hpast
    exact hrefl (.resumed i hb)
  | spawned i c hb hstart hduty =>
    cases hpast
    exact hrefl (.spawned i c hb hstart hduty)
  | slept i ms hb hstart hduty =>
    cases hpast
    exact hrefl (.slept i ms hb hstart hduty)
  | returned i e hb hworld =>
    cases hpast
    exact hrefl (.returned i e hb hworld)
  | reached i l hb hstart hduty =>
    cases hpast
    exact hrefl (.reached i l hb hstart hduty)
  | entered i l hb hon hfree hfirst =>
    cases hpast
    exact ⟨_, .entered i l hb hon hfree hfirst, hon⟩
  | left i l hb hstart hduty =>
    cases hpast
    exact ⟨_, .left i l hb hstart hduty, hstart ▸ hduty.1.1⟩
  | gathered i jobs hb hstart hduty =>
    cases hpast
    exact hrefl (.gathered i jobs hb hstart hduty)
  | ended i r hb hstart hduty =>
    cases hpast
    exact hrefl (.ended i r hb hstart hduty)

/-- At a pause a task is calm or has settled what it was asked for, since it went on at a wait. -/
theorem Lawful.pause {m : Moment} (hlawful : Lawful s₀ b (m :: h))
    (hpause : m.what.isPause = true) :
    Lawful s₀ m.state (m :: h) ∧ Lawful s₀ (h.story m.who).start h ∧
      (m.what.isEnd = false ∧ (h.story m.who).Calm m.state ∨
        ∃ r, m.what = .ended r ∧ (h.story m.who).Settled m.state r) := by
  generalize hpast : m :: h = past at hlawful
  induction hlawful with
  | nil => exact absurd hpast (by simp)
  | outside hb hworld ih => exact ih hpast
  | spawned i c hb hstart hduty =>
    cases hpast
    exact ⟨.spawned i c hb hstart hduty, hstart ▸ hb, .inl ⟨rfl, hduty.1⟩⟩
  | slept i ms hb hstart hduty =>
    cases hpast
    exact ⟨.slept i ms hb hstart hduty, hstart ▸ hb, .inl ⟨rfl, hduty⟩⟩
  | reached i l hb hstart hduty =>
    cases hpast
    exact ⟨.reached i l hb hstart hduty, hstart ▸ hb, .inl ⟨rfl, hduty.1⟩⟩
  | gathered i jobs hb hstart hduty =>
    cases hpast
    exact ⟨.gathered i jobs hb hstart hduty, hstart ▸ hb, .inl ⟨rfl, hduty.1⟩⟩
  | ended i r hb hstart hduty =>
    cases hpast
    exact ⟨.ended i r hb hstart hduty, hstart ▸ hb, .inr ⟨r, rfl, hduty⟩⟩
  | asked | resumed | returned | entered | left =>
    cases hpast
    exact absurd hpause (by simp [Happening.isPause])

/-- A lock has one holder at a time. -/
theorem Lawful.holder_unique (hlawful : Lawful s₀ b h) (hi : (h.story i).holding = some l)
    (hj : (h.story j).holding = some l) : i = j := by
  induction hlawful with
  | nil => exact absurd hi (by simp [story, holding])
  | outside hb hworld ih => exact ih hi hj
  | reached i' l' hb hstart hduty ih =>
    rw [holding_story_reached] at hi hj
    exact ih hi hj
  | entered i' l' hb hon hfree hfirst ih =>
    rw [holding_story_entered] at hi hj
    by_cases hii : i' = i
    · by_cases hij : i' = j
      · exact hii.symm.trans hij
      · rw [if_pos hii] at hi
        rw [if_neg hij] at hj
        cases hi
        exact absurd hj (hfree j)
    · rw [if_neg hii] at hi
      by_cases hij : i' = j
      · rw [if_pos hij] at hj
        cases hj
        exact absurd hi (hfree i)
      · rw [if_neg hij] at hj
        exact ih hi hj
  | left i' l' hb hstart hduty ih =>
    rw [holding_story_left] at hi hj
    by_cases hii : i' = i
    · rw [if_pos hii] at hi
      exact absurd hi (by simp)
    · by_cases hij : i' = j
      · rw [if_pos hij] at hj
        exact absurd hj (by simp)
      · rw [if_neg hii] at hi
        rw [if_neg hij] at hj
        exact ih hi hj
  | _ =>
    rename_i ih
    rw [holding_story_of_quiet rfl] at hi hj
    exact ih hi hj

/-- Everybody asks for a lock once at most. -/
theorem Lawful.nodup_arrivals (hlawful : Lawful s₀ b h) (l : Nat) : (h.arrivals l).Nodup := by
  induction hlawful with
  | nil => exact List.nodup_nil
  | outside hb hworld ih => exact ih
  | reached i l' hb hstart hduty ih =>
    rw [arrivals_reached]
    split
    · refine List.nodup_cons.2 ⟨fun hi => ?_, ih⟩
      have hreached := hduty.2.2.1
      rw [hasReached_of_mem_arrivals hi] at hreached
      exact absurd hreached (by simp)
    · exact ih
  | entered i l' hb hon hfree hfirst ih => exact ih
  | left i l' hb hstart hduty ih => exact ih
  | _ =>
    rename_i ih
    rw [arrivals_cons_of_quiet rfl]
    exact ih

/-- A lock is given in the order in which it was asked for. -/
theorem Lawful.entries_suffix (hlawful : Lawful s₀ b h) (l : Nat) :
    h.entries l <:+ h.arrivals l := by
  induction hlawful with
  | nil => exact List.suffix_refl _
  | outside hb hworld ih => exact ih
  | reached i l' hb hstart hduty ih =>
    rw [arrivals_reached, entries_reached]
    split
    · exact ih.trans (List.suffix_cons i _)
    · exact ih
  | entered i l' hb hon hfree hfirst ih =>
    rw [entries_entered, arrivals_entered]
    split
    · next hl =>
      subst hl
      obtain ⟨later, hlater⟩ := hfirst
      exact ⟨later, hlater.symm⟩
    · exact ih
  | left i l' hb hstart hduty ih => exact ih
  | _ =>
    rename_i ih
    rw [arrivals_cons_of_quiet rfl, entries_cons_of_quiet rfl]
    exact ih

/-- Whoever holds a lock has asked for it. -/
theorem Lawful.mem_arrivals (hlawful : Lawful s₀ b h) (hi : (h.story i).holding = some l) :
    i ∈ h.arrivals l := by
  induction hlawful with
  | nil => exact absurd hi (by simp [story, holding])
  | outside hb hworld ih => exact ih hi
  | reached i' l' hb hstart hduty ih =>
    rw [holding_story_reached] at hi
    rw [arrivals_reached]
    split
    · exact List.mem_cons_of_mem _ (ih hi)
    · exact ih hi
  | entered i' l' hb hon hfree hfirst ih =>
    rw [holding_story_entered] at hi
    rw [arrivals_entered]
    split at hi
    · next hii =>
      cases hi
      obtain ⟨later, hlater⟩ := hfirst
      rw [hlater, ← hii]
      simp
    · exact ih hi
  | left i' l' hb hstart hduty ih =>
    rw [holding_story_left] at hi
    split at hi
    · exact absurd hi (by simp)
    · exact ih hi
  | _ =>
    rename_i ih
    rw [holding_story_of_quiet rfl] at hi
    rw [arrivals_cons_of_quiet rfl]
    exact ih hi

/-! ## Who is under way -/

/-- A task has asked for a lock and has not given it back. -/
def Underway (h : History) (i : TaskId) (l : Nat) : Prop :=
  i ∈ h.arrivals l ∧ (i ∈ h.entries l → (h.story i).holding = some l)

instance (h : History) (i : TaskId) (l : Nat) : Decidable (h.Underway i l) :=
  inferInstanceAs (Decidable (_ ∧ _))

theorem underway_of_quiet {m : Moment} (hquiet : m.what.isQuiet = true)
    (hi : Underway (m :: h) i l) : h.Underway i l := by
  rw [Underway, arrivals_cons_of_quiet hquiet, entries_cons_of_quiet hquiet,
    holding_story_of_quiet hquiet] at hi
  exact hi

theorem underway_of_reached {s : State} {l' : Nat} (hold : i ∈ h.arrivals l)
    (hi : Underway (⟨j, .reached l', s⟩ :: h) i l) : h.Underway i l := by
  obtain ⟨-, hholding⟩ := hi
  rw [entries_reached, holding_story_reached] at hholding
  exact ⟨hold, hholding⟩

theorem underway_of_left {s : State} {l' : Nat} (hi : Underway (⟨j, .left l', s⟩ :: h) i l) :
    h.Underway i l := by
  obtain ⟨harrived, hholding⟩ := hi
  refine ⟨harrived, fun hentered => ?_⟩
  have hholding' := hholding hentered
  rw [holding_story_left] at hholding'
  split at hholding'
  · exact absurd hholding' (by simp)
  · exact hholding'

theorem underway_of_entered {s : State} {l' : Nat} (hnodup : (h.arrivals l').Nodup)
    (hfirst : ∃ later, h.arrivals l' = later ++ j :: h.entries l')
    (hi : Underway (⟨j, .entered l', s⟩ :: h) i l) : h.Underway i l := by
  obtain ⟨harrived, hholding⟩ := hi
  refine ⟨harrived, fun hentered => ?_⟩
  have hmem : i ∈ entries (⟨j, .entered l', s⟩ :: h) l := by
    rw [entries_entered]
    split
    · exact List.mem_cons_of_mem _ hentered
    · exact hentered
  have hholding' := hholding hmem
  rw [holding_story_entered] at hholding'
  split at hholding'
  · next hji =>
    -- whoever is given a lock has not had it before
    cases hholding'
    obtain ⟨later, hlater⟩ := hfirst
    rw [hlater, List.nodup_append, List.nodup_cons] at hnodup
    exact absurd (hji ▸ hentered) hnodup.2.1.1
  · exact hholding'

/-! ## The lock of a workspace -/

/-- At a moment a removal of an earlier registration of the same root comes to its end, and a
check of a registration is under way. -/
def CutOff (h : History) (m : Moment) (n : Nat) : Prop :=
  m.what.isEnd = true ∧ n < m.state.registrations.length ∧ m.state.isRemoved n = false ∧
    (h.story m.who).Removes m.state (m.state.key n) ∧
    ∃ i l, h.Underway i l ∧ (h.story i).subject? = some n

/-- Those under way are among those who have asked for a lock. -/
theorem exists_underway_iff (h : History) (n : Nat) :
    (∃ i l, h.Underway i l ∧ (h.story i).subject? = some n) ↔
      ∃ m ∈ h, ∃ l ∈ m.what.reached?, h.Underway m.who l ∧ (h.story m.who).subject? = some n := by
  constructor
  · rintro ⟨i, l, hi, hn⟩
    obtain ⟨m, hm, hwhat⟩ := List.mem_filterMap.1 hi.1
    split at hwhat
    · next l' hreached =>
      split at hwhat
      · next hl =>
        cases hwhat
        exact ⟨m, hm, l, by simp [hreached, hl, Happening.reached?], hi, hn⟩
      · exact absurd hwhat (by simp)
    · exact absurd hwhat (by simp)
  · rintro ⟨m, -, l, -, hm, hn⟩
    exact ⟨m.who, l, hm, hn⟩

instance (h : History) (m : Moment) (n : Nat) : Decidable (h.CutOff m n) :=
  have := decidable_of_decidable_of_iff (exists_underway_iff h n).symm
  inferInstanceAs (Decidable (_ ∧ _ ∧ _ ∧ _ ∧ _))

/-- A check of a registration has been cut off by a removal of an earlier registration. -/
def Overlapped (n : Nat) : History → Prop
  | [] => False
  | m :: h => CutOff h m n ∨ Overlapped n h

/-- Whether a check has been cut off can be found out by going through the history. -/
def decideOverlapped (n : Nat) : (h : History) → Decidable (h.Overlapped n)
  | [] => isFalse id
  | m :: h =>
    have := decideOverlapped n h
    inferInstanceAs (Decidable (CutOff h m n ∨ Overlapped n h))

instance (n : Nat) (h : History) : Decidable (h.Overlapped n) := decideOverlapped n h

/-- A task that has asked for a lock is a check of some registration. While it is under way, the
lock is that of the workspace, as long as the registration is not removed and no removal overlaps
with it. If no registration of the root has been removed at all, it is that of the workspace
anyway. -/
def Arrived (h : History) (b : State) (i : TaskId) (l : Nat) : Prop :=
  ∃ q n, (h.story i).request? = some q ∧ q.isCheck = true ∧ (h.story i).subject? = some n ∧
    n < b.registrations.length ∧
    (h.Underway i l → b.isRemoved n = false → ¬ h.Overlapped n →
      b.lockOf.get? (b.key n) = some l) ∧
    (¬ b.Dropped (b.key n) → b.lockOf.get? (b.key n) = some l)

theorem Arrived.cons {m : Moment} {s : State} (ha : h.Arrived b i l) (hs : b.Later s)
    (hnew : ∀ q, m.what = .asked q → h.story m.who = [])
    (hunderway : Underway (m :: h) i l → h.Underway i l)
    (hlocks : ∀ k l, b.lockOf.get? k = some l → s.lockOf.get? k = some l ∨
      m.state = s ∧ m.what.isEnd = true ∧ (h.story m.who).Removes s k) :
    Arrived (m :: h) s i l := by
  obtain ⟨q, n, hq, hcheck, hsubject, hn, hlock, hkept⟩ := ha
  have hn' := Nat.lt_of_lt_of_le hn hs.length
  refine ⟨q, n, request?_story_cons hnew hq, hcheck, subject?_story_cons hnew hsubject, hn',
    fun hi hremoved hoverlap => ?_, ?_⟩
  · have hl := hlock (hunderway hi) (hs.not_removed hn hremoved) fun ho => hoverlap (Or.inr ho)
    rw [hs.key n hn]
    rcases hlocks _ l hl with hl' | ⟨rfl, hend, hr⟩
    · exact hl'
    · rw [← hs.key n hn] at hr
      have hcut : h.CutOff m n := ⟨hend, hn', hremoved, hr, i, l, hunderway hi, hsubject⟩
      exact absurd (Or.inl hcut) hoverlap
  · rw [hs.key n hn]
    exact fun hd => hs.lock _ l hd (hkept fun hd' => hd (hs.dropped hd'))

theorem Arrived.core {s : State} (ha : h.Arrived b i l) (hs : s.core = b.core) :
    h.Arrived s i l := by
  obtain ⟨q, n, hq, hcheck, hsubject, hn, hlock⟩ := ha
  refine ⟨q, n, hq, hcheck, hsubject, by rwa [State.registrations_of_core hs], ?_⟩
  rw [State.isRemoved_of_core hs, State.lockOf_of_core hs, State.key_of_core hs,
    State.dropped_of_core hs]
  exact hlock

/-- A task that is calm has given up no lock. -/
theorem Arrived.calm {m : Moment} (ha : h.Arrived b i l) (hcalm : (h.story m.who).Calm m.state)
    (hstart : (h.story m.who).start = b) (hwhat : ∀ q, m.what ≠ .asked q)
    (hunderway : Underway (m :: h) i l → h.Underway i l) : Arrived (m :: h) m.state i l := by
  subst hstart
  exact ha.cons hcalm.onward.1 (fun q hq => absurd hq (hwhat q)) hunderway fun k l hl =>
    .inl (hcalm.locks k l hl)

theorem Lawful.arrived (hlawful : Lawful s₀ b h) (hi : i ∈ h.arrivals l) : h.Arrived b i l := by
  have hsame : ∀ {b : State} {h : History} (m : Moment), (∀ q, m.what = .asked q →
      h.story m.who = []) → (Underway (m :: h) i l → h.Underway i l) → h.Arrived b i l →
      Arrived (m :: h) b i l := fun m hnew hunderway ha =>
    ha.cons (State.Later.refl _) hnew hunderway fun k l hl => .inl hl
  induction hlawful with
  | nil => exact absurd hi (by simp [arrivals])
  | asked j r hb hnew hknown ih =>
    exact hsame _ (fun _ _ => hnew) (underway_of_quiet rfl) (ih hi)
  | resumed j hb ih => exact hsame _ (by simp) (underway_of_quiet rfl) (ih hi)
  | spawned j c hb hstart hduty ih =>
    exact (ih hi).calm hduty.1 hstart (by simp) (underway_of_quiet rfl)
  | slept j ms hb hstart hduty ih =>
    exact (ih hi).calm hduty hstart (by simp) (underway_of_quiet rfl)
  | outside hb hworld ih => exact (ih hi).core hworld
  | returned j e hb hworld ih =>
    exact hsame _ (by simp) (underway_of_quiet rfl) ((ih hi).core hworld)
  | @reached b s h j l' hb hstart hduty ih =>
    have hold : i ∈ h.arrivals l → Arrived (⟨j, .reached l', s⟩ :: h) s i l := fun hi =>
      (ih hi).calm hduty.1 hstart (by simp) (underway_of_reached hi)
    rw [arrivals_reached] at hi
    split at hi
    · next hl =>
      rcases List.mem_cons.1 hi with rfl | hi
      · obtain ⟨-, -, q, n, hq, hcheck, hsubject, hn, hlock⟩ := hduty.2
        subst hl
        exact ⟨q, n, request?_story_cons (by simp) hq, hcheck,
          subject?_story_cons (by simp) hsubject, hn, fun _ _ _ => hlock, fun _ => hlock⟩
      · exact hold hi
    · exact hold hi
  | entered j l' hb hon hfree hfirst ih =>
    exact hsame _ (by simp) (underway_of_entered (hb.nodup_arrivals l') hfirst) (ih hi)
  | left j l' hb hstart hduty ih => exact hsame _ (by simp) underway_of_left (ih hi)
  | gathered j jobs hb hstart hduty ih =>
    exact (ih hi).calm hduty.1 hstart (by simp) (underway_of_quiet rfl)
  | ended j r hb hstart hduty ih =>
    subst hstart
    refine (ih hi).cons hduty.steady.1.1 (by simp) (underway_of_quiet rfl) fun k l hl => ?_
    rcases hduty.steady.2 k l hl with hl' | hr
    · exact .inl hl'
    · exact .inr ⟨rfl, rfl, hr⟩

end Overseer.History
