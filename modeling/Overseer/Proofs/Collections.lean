import Overseer.Proofs.Scheduling

set_option autoImplicit false

/-! # Collections and registrations

A registration brings a collection with it and a removal takes it away, so at every pause the
workspaces with a collection should be the registered ones. They are, but for one case: a restart
whose registration is removed while it waits for the old daemon to stop goes on to ask for the
collection of its workspace, and one is made that nobody will dispose of (`LeftBehind`).

What such a restart finds is thrown away all the same. Whoever files diagnostics looks once more
whether the registration has been removed, so whatever is in a collection was put there by a
check of a registration that was still in force (`FiledFor`). -/

namespace Overseer

open Chronicle

namespace History

variable {s₀ b : State} {h : History} {k : String} {m : Moment}

/-! ## Collections that are left behind -/

/-- A restart has outlived its registration, and at every pause from then on there was a
collection for the workspace, which was not registered. -/
def LeftBehind (k : String) : History → Prop
  | [] => False
  | m :: h => (m.what.isPause = true → m.state.Stray k) ∧
    (m.what.isPause = true ∧ (story h m.who).Outlives m.state k ∨ LeftBehind k h)

/-- A stray collection at a pause was stray when the task went on, or the task has left it. -/
theorem leftBehind_of_pause (hk : m.state.Stray k)
    (hstrays : m.state.Stray k → (h.story m.who).start.Stray k ∨ (h.story m.who).Outlives m.state k)
    (hpause : m.what.isPause = true) (hold : (h.story m.who).start.Stray k → h.LeftBehind k) :
    LeftBehind k (m :: h) := by
  refine ⟨fun _ => hk, ?_⟩
  rcases hstrays hk with hstart | houtlives
  · exact .inr (hold hstart)
  · exact .inl ⟨hpause, houtlives⟩

theorem leftBehind_of_not_pause (hpause : m.what.isPause = false) (hold : h.LeftBehind k) :
    LeftBehind k (m :: h) :=
  ⟨fun hp => absurd (hpause.symm.trans hp) (by simp), .inr hold⟩

/-- Every stray collection has been left behind. -/
theorem Lawful.leftBehind (h₀ : ¬ s₀.Stray k) (hlawful : Lawful s₀ b h) (hk : b.Stray k) :
    h.LeftBehind k := by
  -- whoever pauses may have left the collection himself; otherwise it was stray when he went on,
  -- which was at the last wait, so the induction hypothesis applies
  induction hlawful with
  | nil => exact absurd hk h₀
  | asked i r hb hnew hknown ih => exact leftBehind_of_not_pause rfl (ih hk)
  | resumed i hb ih => exact leftBehind_of_not_pause rfl (ih hk)
  | spawned i c hb hstart hduty ih =>
    exact leftBehind_of_pause hk (hduty.1.strays k) rfl fun hs => ih (hstart ▸ hs)
  | slept i ms hb hstart hduty ih =>
    exact leftBehind_of_pause hk (Calm.strays hduty k) rfl fun hs => ih (hstart ▸ hs)
  | outside hb hworld ih => exact ih ((State.stray_of_core hworld k).1 hk)
  | returned i e hb hworld ih =>
    exact leftBehind_of_not_pause rfl (ih ((State.stray_of_core hworld k).1 hk))
  | reached i l hb hstart hduty ih =>
    exact leftBehind_of_pause hk (hduty.1.strays k) rfl fun hs => ih (hstart ▸ hs)
  | entered i l hb hon hfree hfirst ih => exact leftBehind_of_not_pause rfl (ih hk)
  | left i l hb hstart hduty ih => exact leftBehind_of_not_pause rfl (ih hk)
  | gathered i jobs hb hstart hduty ih =>
    exact leftBehind_of_pause hk (hduty.1.strays k) rfl fun hs => ih (hstart ▸ hs)
  | ended i r hb hstart hduty ih =>
    exact leftBehind_of_pause hk (hduty.strays k) rfl fun hs => ih (hstart ▸ hs)

/-! ## Where diagnostics come from -/

/-- A check of a registration that had not been removed ended and filed something in the
collection of its workspace that was not there before. -/
def FiledFor (id : Nat) (e : DocumentKey × List Diagnostic) (h : History) : Prop :=
  ∃ (m : Moment) (h' : History), m :: h' <:+ h ∧ m.what.isEnd = true ∧
    (∃ q ∈ (h'.story m.who).request?, ∃ n ∈ (h'.story m.who).subject?, q.isCheck = true ∧
      m.state.isRemoved n = false ∧ m.state.store.current.get? (m.state.key n) = some id) ∧
    (∃ c, m.state.store.at? id = some c ∧ e ∈ c.entries.entries) ∧
    ¬ ∃ c, (h'.story m.who).start.store.at? id = some c ∧ e ∈ c.entries.entries

theorem FiledFor.cons {id : Nat} {e : DocumentKey × List Diagnostic} (hf : h.FiledFor id e)
    (m : Moment) : FiledFor id e (m :: h) := by
  obtain ⟨m', h', hsuffix, hfiled⟩ := hf
  exact ⟨m', h', hsuffix.trans (List.suffix_cons m h), hfiled⟩

/-- All diagnostics have been filed for registrations that had not been removed. -/
theorem Lawful.filedFor (h₀ : ∀ id, s₀.store.at? id = none) (hlawful : Lawful s₀ b h) {id : Nat}
    {c : Collection} {e : DocumentKey × List Diagnostic} (hc : b.store.at? id = some c)
    (he : e ∈ c.entries.entries) : h.FiledFor id e := by
  -- only the end of a check adds an entry; until then all of them are as at the last wait
  induction hlawful generalizing c with
  | nil =>
    rw [h₀ id] at hc
    exact absurd hc (by simp)
  | asked i r hb hnew hknown ih => exact (ih hc he).cons _
  | resumed i hb ih => exact (ih hc he).cons _
  | spawned i call hb hstart hduty ih =>
    obtain ⟨c₀, hc₀, he₀⟩ := hduty.1.exists_entry hc he
    exact (ih (hstart ▸ hc₀) he₀).cons _
  | slept i ms hb hstart hduty ih =>
    obtain ⟨c₀, hc₀, he₀⟩ := Calm.exists_entry hduty hc he
    exact (ih (hstart ▸ hc₀) he₀).cons _
  | outside hb hworld ih => exact ih (State.store_of_core hworld ▸ hc) he
  | returned i r hb hworld ih => exact (ih (State.store_of_core hworld ▸ hc) he).cons _
  | reached i l hb hstart hduty ih =>
    obtain ⟨c₀, hc₀, he₀⟩ := hduty.1.exists_entry hc he
    exact (ih (hstart ▸ hc₀) he₀).cons _
  | entered i l hb hon hfree hfirst ih => exact (ih hc he).cons _
  | left i l hb hstart hduty ih => exact (ih hc he).cons _
  | gathered i jobs hb hstart hduty ih =>
    obtain ⟨c₀, hc₀, he₀⟩ := hduty.1.exists_entry hc he
    exact (ih (hstart ▸ hc₀) he₀).cons _
  | @ended b s h i r hb hstart hduty ih =>
    by_cases hold : ∃ c₀, (h.story i).start.store.at? id = some c₀ ∧ e ∈ c₀.entries.entries
    · obtain ⟨c₀, hc₀, he₀⟩ := hold
      exact (ih (hstart ▸ hc₀) he₀).cons _
    · obtain ⟨q, hq, n, hn, hcheck, -, hr, hcurrent⟩ :=
        (hduty.placed id c hc e he).resolve_left hold
      exact ⟨_, h, List.suffix_refl _, rfl, ⟨q, hq, n, hn, hcheck, hr, hcurrent⟩, ⟨c, hc, he⟩, hold⟩

/-- A task about a registration that has been removed has filed nothing since it went on. -/
theorem Lawful.exists_entry {n : Nat} (hlawful : Lawful s₀ b (m :: h))
    (hpause : m.what.isPause = true) (hn : (h.story m.who).subject? = some n)
    (hremoved : m.state.isRemoved n = true) {id : Nat} {c : Collection}
    {e : DocumentKey × List Diagnostic} (hc : m.state.store.at? id = some c)
    (he : e ∈ c.entries.entries) :
    ∃ c₀, (h.story m.who).start.store.at? id = some c₀ ∧ e ∈ c₀.entries.entries := by
  obtain ⟨-, -, ⟨-, hcalm⟩ | ⟨r, -, hsettled⟩⟩ := hlawful.pause hpause
  · exact hcalm.exists_entry hc he
  · rcases hsettled.placed id c hc e he with hold | ⟨q, -, n', hn', -, -, hr, -⟩
    · exact hold
    · obtain rfl : n = n' := Option.some.inj (hn.symm.trans hn')
      rw [hremoved] at hr
      exact absurd hr (by simp)

end History

/-! ## Who has a collection -/

theorem not_stray_setup (setup : Setup) (k : String) : ¬ setup.state.Stray k := by
  simp [State.Stray, Setup.state]

/-- At every pause all collections in use belong to their workspaces and have not been disposed
of, every registered workspace has one, and a workspace has one without being registered if and
only if a restart has left it behind. -/
theorem collections_of_registrations (setup : Setup) (moves : List Move) {m : Moment} {h : History}
    (hm : m :: h <:+ (after setup moves).history) (hpause : m.what.isPause = true) (k : String) :
    (∀ id, m.state.store.current.get? k = some id →
      ∃ c, m.state.store.at? id = some c ∧ c.workspace = k ∧ c.disposed = false) ∧
    ((m.state.registry.get? k).isSome = true → (m.state.store.current.get? k).isSome = true) ∧
    (((m.state.store.current.get? k).isSome = true ↔ (m.state.registry.get? k).isSome = true) ↔
      ¬ History.LeftBehind k (m :: h)) := by
  obtain ⟨b, hsuffix⟩ := (lawful_after setup moves).suffix hm
  obtain ⟨hlawful, -⟩ := hsuffix.pause hpause
  have hs := hlawful.coherent (coherent_setup setup)
  have hlisted : (m.state.registry.get? k).isSome = true →
      (m.state.store.current.get? k).isSome = true := by
    intro hk
    obtain ⟨n, hn⟩ := Option.isSome_iff_exists.1 hk
    obtain ⟨id, hid⟩ := hs.listed k n hn
    simp [hid]
  refine ⟨hs.current k, hlisted, fun hsame hleft => ?_, fun hleft => ⟨fun hk => ?_, hlisted⟩⟩
  · obtain ⟨hregistered, hcurrent⟩ := hleft.1 hpause
    rw [hregistered, Option.isSome_iff_ne_none] at hsame
    exact absurd (hsame.1 hcurrent) (by simp)
  · cases hregistered : m.state.registry.get? k with
    | some n => rfl
    | none =>
      have hstray : m.state.Stray k := ⟨hregistered, Option.isSome_iff_ne_none.1 hk⟩
      exact absurd (hlawful.leftBehind (not_stray_setup setup k) hstray) hleft

/-- A registration is removed during its check, the root is registered and checked again, and then
the first check ends. -/
def Chronicle.late : List Move :=
  [.respond [
      { command := some "run", exitCode := 1, held := true,
        stdout := Text.encode "b.py:1:1:1:2: error: Bad  [misc]\n".toList },
      { command := some "run", exitCode := 1,
        stdout := Text.encode "a.py:1:1:1:2: error: Bad  [misc]\n".toList }],
    .request (.add "/w" none), .take, .request (.check "/w"), .take, .request (.remove "/w"), .take,
    .request (.add "/w" none), .take, .request (.check "/w"), .take, .release 0, .take]

/-- The end of the late check: its registration has been removed, and the collection of the new
registration shows what the second check has found. -/
theorem late_check_ends :
    ∃ m h c, m :: h = (after .small late).history ∧ m.what.isPause = true ∧
      History.subject? (History.story h m.who) = some 0 ∧ m.state.isRemoved 0 = true ∧
      m.state.registry.get? "/w" = some 1 ∧ m.state.store.current.get? "/w" = some 1 ∧
      m.state.store.at? 1 = some c ∧ c.keys = [.file "/cwd/a.py"] := by
  have hrun : (after .small late).atLast (fun m h =>
      m.what.isPause && History.subject? (History.story h m.who) == some 0 &&
      m.state.isRemoved 0 && m.state.registry.get? "/w" == some 1 &&
      m.state.store.current.get? "/w" == some 1 &&
      (m.state.store.at? 1).map Collection.keys == some [.file "/cwd/a.py"]) = true := by
    decide +kernel
  obtain ⟨m, h, hpast, hlast⟩ := exists_of_atLast hrun
  simp only [Bool.and_eq_true, beq_iff_eq, Option.map_eq_some_iff, and_assoc] at hlast
  obtain ⟨hpause, hsubject, hremoved, hregistered, hcurrent, c, hc, hkeys⟩ := hlast
  exact ⟨m, h, c, hpast, hpause, hsubject, hremoved, hregistered, hcurrent, hc, hkeys⟩

/-- The late check has left nothing behind. -/
theorem collections_of_registrations_after_late_check :
    ∃ m h, m :: h = (after .small late).history ∧ m.what.isPause = true ∧
      m.state.registry.get? "/w" = some 1 ∧ m.state.store.current.get? "/w" = some 1 ∧
      ¬ History.LeftBehind "/w" (m :: h) := by
  obtain ⟨m, h, c, hpast, hpause, -, -, hregistered, hcurrent, -⟩ := late_check_ends
  refine ⟨m, h, hpast, hpause, hregistered, hcurrent, ?_⟩
  refine (collections_of_registrations .small late ⟨[], hpast⟩ hpause "/w").2.2.1 ?_
  simp [hregistered, hcurrent]

/-- A registration is removed while a restart waits for the daemon to stop. -/
def Chronicle.outlived : List Move :=
  [.respond [{ command := some "run" }, { command := some "stop", held := true },
      { command := some "stop" }, { command := some "run" }],
    .request (.add "/w" none), .take, .request (.check "/w"), .take,
    .request (.signal "/w" .configChanged []), .take, .request (.remove "/w"), .take,
    .release 1, .take]

/-- The restart goes on, and the root has a collection although it is not registered. -/
theorem collection_without_registration :
    (after .small outlived).session.state.registry.get? "/w" = none ∧
      (after .small outlived).session.state.store.current.get? "/w" = some 1 := by
  decide +kernel

/-! ## What removed registrations file -/

/-- A task about a registration that has been removed files nothing in any collection: whatever is
there when it pauses was there when it went on. All that is ever in a collection was filed by a
check whose registration had not been removed. -/
theorem nothing_filed_once_removed (setup : Setup) (moves : List Move) :
    (∀ (m : Moment) (h : History), m :: h <:+ (after setup moves).history → m.what.isPause = true →
      ∀ n, (h.story m.who).subject? = some n → m.state.isRemoved n = true →
      ∀ id c, m.state.store.at? id = some c → ∀ e ∈ c.entries.entries,
        ∃ c₀, (h.story m.who).start.store.at? id = some c₀ ∧ e ∈ c₀.entries.entries) ∧
    ∀ id c, (after setup moves).session.state.store.at? id = some c → ∀ e ∈ c.entries.entries,
      (after setup moves).history.FiledFor id e := by
  have hlawful := lawful_after setup moves
  refine ⟨fun m h hm hpause n hn hremoved id c hc e he => ?_, fun id c hc e he => ?_⟩
  · obtain ⟨b, hsuffix⟩ := hlawful.suffix hm
    exact hsuffix.exists_entry hpause hn hremoved hc he
  · exact hlawful.filedFor (fun id => by simp [Setup.state, Store.at?]) hc he

/-- All that the collection of the new registration shows when the late check ends was there
before. -/
theorem nothing_filed_by_late_check :
    ∃ m h c, m :: h = (after .small late).history ∧
      History.subject? (History.story h m.who) = some 0 ∧ m.state.isRemoved 0 = true ∧
      m.state.store.at? 1 = some c ∧ c.keys = [.file "/cwd/a.py"] ∧
      ∀ e ∈ c.entries.entries,
        ∃ c₀, (History.story h m.who).start.store.at? 1 = some c₀ ∧ e ∈ c₀.entries.entries := by
  obtain ⟨m, h, c, hpast, hpause, hsubject, hremoved, -, -, hc, hkeys⟩ := late_check_ends
  exact ⟨m, h, c, hpast, hsubject, hremoved, hc, hkeys,
    (nothing_filed_once_removed .small late).1 m h ⟨[], hpast⟩ hpause 0 hsubject hremoved 1 c hc⟩

end Overseer
