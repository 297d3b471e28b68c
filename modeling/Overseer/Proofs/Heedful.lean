import Overseer.Proofs.Remits
import Overseer.Proofs.Accord

set_option autoImplicit false

/-! # Everybody keeps to a remit

Whoever is asked for something keeps to the remit of the request and keeps marks tidy, whatever the
others do and however child processes behave: this is an accord (`heedful`), and every run is one of
tasks that hold to it (`dutiful_after`). So handles are never lost on the way, and a task that
waits finds those that it knows. -/

namespace Overseer

open History Chronicle

/-- A task is about the workspace that its remit says, or about none. -/
structure History.Scoped (h : History) (r : Remit) : Prop where
  began : h.began?.isSome = true
  key : ∀ n, h.subject? = some n →
    n < h.start.registrations.length ∧ r.key? = some (h.start.key n)
  subject : r.key? ≠ none → h.subject? ≠ none

/-- A task keeps to its remit and keeps marks tidy, from some state on. -/
structure Prog.Heedful (t : Task Reply) (r : Remit) (i : TaskId) (h : History) (s : State) :
    Prop where
  scope : h.Scoped r
  sound : s.HandlesSound
  touches : h.start.Touches r s
  heeds : t.Heeds (tidiness r) i (fun f h s => (tidiness r).duty h s (.ended f.reply)) h s

namespace Prog.Heedful

variable {h h' : History} {r : Remit} {s s' : State} {i : TaskId} {t t' : Task Reply}

/-- Keys of registrations stay as they are up to the next wait. -/
theorem key (ht : t.Heedful r i h s) {n : Nat} (hn : h.subject? = some n) :
    n < s.registrations.length ∧ r.key? = some (s.key n) := by
  obtain ⟨hlt, hk⟩ := ht.scope.key n hn
  have hsome : r.key? ≠ none := by simp [hk]
  rw [(ht.touches.workspaces hsome).1, ht.touches.key hsome]
  exact ⟨hlt, hk⟩

/-- Whoever goes on at a wait does so in a state that others have left. -/
theorem resume (ht : t.Heedful r i h s) (hon : s.Later s') (hlater : s.HandlesLater s')
    (hbegan : h'.began? = h.began?) (hrequest : h'.request? = h.request?)
    (hheeds : t'.Heeds (tidiness r) i (fun f h s => (tidiness r).duty h s (.ended f.reply))
      (⟨i, .resumed, s'⟩ :: h') s') : t'.Heedful r i (⟨i, .resumed, s'⟩ :: h') s' := by
  have hsubject : subject? (⟨i, .resumed, s'⟩ :: h') = h.subject? := by
    rw [subject?_resumed i s' (hbegan ▸ ht.scope.began), subject?, subject?, hbegan, hrequest]
  refine ⟨⟨rfl, fun n hn => ?_, fun hr => hsubject ▸ ht.scope.subject hr⟩, hlater.sound ht.sound,
    .refl, hheeds⟩
  rw [hsubject] at hn
  obtain ⟨hlt, hk⟩ := ht.key hn
  exact ⟨Nat.lt_of_lt_of_le hlt hon.length, by rw [hk, ← hon.key n hlt]; rfl⟩

end Prog.Heedful

/-- Whoever is asked for something, or does a job, keeps to a remit. -/
def heedful : Accord where
  rely _ := State.HandlesLater
  deals _ _ := True
  gives _ _ := True
  goesOn i t h _ s := ∃ r, t.Heedful r i h s
  rely_refl _ := .refl
  rely_trans := .trans
  rely_finished _ _ _ := .of_eq rfl rfl
  pause := by
    rintro i t h d s ⟨r, ht⟩ - j -
    exact ht.touches.handlesLater
  read := by
    rintro i k h d s ⟨r, ht⟩
    exact ⟨r, ht.scope, ht.sound, ht.touches, ht.heeds⟩
  write := by
    rintro i s' k h d s ⟨r, ht⟩
    exact ⟨r, ht.scope, ht.heeds.1.handlesLater.sound ht.sound, ht.touches.trans ht.heeds.1,
      ht.heeds.2⟩
  refused := by
    rintro i call k h d s b e ⟨r, ht⟩ - -
    exact ⟨r, ht.resume (.refl s) (.refl s) rfl rfl (ht.heeds.2.1 e)⟩
  answered := by
    rintro i call k h d s b ⟨r, ht⟩ - - s₁ s₂ h₁ hrely₁ h₂ hrely₂
    have hfinished : s₁.Onward (s₁.finished b) := .of_core rfl h₁.2
    have hon := (h₁.trans hfinished).trans h₂
    have hsame : s₁.HandlesLater (s₁.finished b) := .of_eq rfl rfl
    have hrely : s.HandlesLater s₂ := (hrely₁.trans hsame).trans hrely₂
    exact ⟨r, ht.resume hon.1 hrely rfl rfl (ht.heeds.2.2 _ _ s₂ hon hrely)⟩
  slept := by
    rintro i ms k h d s ⟨r, ht⟩ s₁ hon hrely
    exact ⟨r, ht.resume hon.1 hrely rfl rfl (ht.heeds.2 s₁ hon hrely)⟩
  entered := by
    rintro i l k h d s ⟨r, ht⟩ s₁ s₂ hon hrely
    exact ⟨r, ht.resume hon.1 hrely rfl rfl (ht.heeds.2 s₁ s₂ hon hrely)⟩
  left := by
    rintro i l k h d s ⟨r, ht⟩
    exact ⟨r, ⟨ht.scope.began, ht.scope.key, ht.scope.subject⟩, ht.sound, ht.touches, ht.heeds⟩
  gathered := by
    rintro i jobs k h d s ⟨r, ht⟩ rs - s₁ hon hrely
    exact ⟨r, ht.resume hon.1 hrely rfl rfl (ht.heeds.2 rs s₁ hon hrely)⟩
  jobs := by
    rintro i jobs k h d s ⟨r, ht⟩ batch index job - hknown s₁ hon hrely
    have hlt := Nat.lt_of_lt_of_le hknown hon.1.length
    have hsound := hrely.sound ht.sound
    refine ⟨⟨some (s₁.key job.number), false⟩, ⟨rfl, fun n hn => ?_,
      fun _ => by simp [subject?_opening, Request.subject]⟩, hsound, .refl, ?_⟩
    · obtain rfl : job.number = n := Option.some.inj hn
      exact ⟨hlt, rfl⟩
    · rw [Session.jobTask]
      have hjob := job.heeds_operation (i := .job batch index) (k := s₁.key job.number)
        ⟨hon.2, hsound, hlt, rfl⟩ (tidy_resumed (k := s₁.key job.number) (.job batch index)
          [⟨.job batch index, .asked (.job job), s⟩] s₁)
      rw [Op.heeds_iff_run] at hjob
      refine (Prog.heeds_bind _ _ _ _ _).2 (hjob.mono fun reply h' s' htidy => ?_)
      exact tidiness_duty rfl htidy (by simp)

/-! ## Runs -/

/-- Whoever begins keeps to a remit. -/
theorem heedful_task {q : Request} {step : Nat} {s₀ s : State} (hq : q.isKnown s₀ = true)
    (hs : s₀.Onward s) (hsound : s.HandlesSound) :
    heedful.goesOn (.host step) (q.task step) (opening (.host step) q s₀ s) [] s := by
  have hq' := q.isKnown_of_le hq hs.1.length
  refine ⟨q.remit s, ⟨rfl, fun n hn => ?_, fun hr => ?_⟩, hsound, .refl, ?_⟩
  · rw [subject?_opening] at hn
    exact ⟨q.known_of_subject hs.2 hq' hn, by rw [Request.remit, hn]; rfl⟩
  · rw [subject?_opening]
    intro hnone
    rw [Request.remit, hnone] at hr
    exact hr rfl
  · have hrequest := q.heeds_operation (i := .host step) hq' hs.2 hsound
      fun k => tidy_resumed (k := k) (.host step) [⟨.host step, .asked q, s₀⟩] s
    rw [Op.heeds_iff_run] at hrequest
    refine (Prog.heeds_bind _ _ _ _ _).2 (hrequest.mono fun reply h' s' htidy => ?_)
    exact fun k hk => tidiness_duty hk (htidy k hk) (by simp) k hk

/-- Handles are not lost while tasks keep to their remits. -/
theorem Accord.Dutiful.handlesLater {s₀ b : State} {h₀ h : History}
    (hb : heedful.Dutiful s₀ h₀ b h) : s₀.HandlesLater b := by
  have hgone : ∀ {h : History} {b} {t : Task Reply} {i : TaskId} {s}, s₀.HandlesLater b →
      h.underway? = some (i, b) → (∃ d, heedful.goesOn i t (h.story i) d s) →
      s₀.HandlesLater s := by
    rintro h b t i s hlater hrun ⟨d, r, ht⟩
    have htouches := ht.touches
    rw [start_of_underway? hrun] at htouches
    exact hlater.trans htouches.handlesLater
  induction hb with
  | nil => exact .refl s₀
  | asked i r hb hnew ih => exact ih
  | resumed i hb ih => exact ih
  | spawned i c hb hrun hgo ih | refused i c e hb hrun hgo ih =>
    obtain ⟨k, hgo⟩ := hgo
    exact hgone ih hrun hgo
  | outside w hb ih | returned i e w hb ih => exact ih.trans (.of_eq rfl rfl)
  | slept i ms hb hrun hgo ih | reached i l hb hrun hgo ih | gathered i jobs hb hrun hgo ih =>
    obtain ⟨k, hgo⟩ := hgo
    exact hgone ih hrun hgo
  | entered i l hb ih | left i l hb hrun hgo ih => exact ih
  | ended i f hb hrun hgo ih => exact hgone ih hrun hgo

theorem handlesSound_setup (setup : Setup) : setup.state.HandlesSound where
  valid k id hid := absurd hid (by simp [Setup.state])
  apart k k' id hid := absurd hid (by simp [Setup.state])

/-- Every run is one of tasks that keep to their remits. -/
theorem dutiful_after (setup : Setup) (moves : List Move) :
    heedful.Dutiful setup.state [] (after setup moves).session.state
      (after setup moves).history := by
  have hfirst : heedful.Holds setup.state [] setup.state (fun _ => []) none
      ⟨{ state := setup.state }, [], 0⟩ := by
    refine Accord.Holds.idle (c := ⟨{ state := setup.state }, [], 0⟩) fun i x hx => ?_
    cases x <;> simp [Session.Stands, Session.tasks, Session.lock] at hx
  have hsteps : ∀ (moves : List Move) (c : Chronicle) (d : TaskId → List Behaviour),
      c.Resting setup.state → heedful.Holds setup.state [] c.session.state d none c →
      heedful.Dutiful setup.state [] (moves.foldl Chronicle.step c).session.state
        (moves.foldl Chronicle.step c).history := by
    intro moves
    induction moves with
    | nil => exact fun c d _ hH => hH.dutiful
    | cons m moves ih =>
      intro c d hc hH
      have hcoherent := coherent_setup setup
      refine ih _ _ (hc.step hcoherent m) (hH.step hc hcoherent m ?_ ?_ (fun _ _ _ => trivial)
        fun _ _ _ _ _ => trivial)
      · intro q _ hq s hs hrely
        exact heedful_task hq hs
          ((hH.dutiful.handlesLater.trans hrely).sound (handlesSound_setup setup))
      · exact fun w _ i s => .of_eq rfl rfl
  refine hsteps moves _ _ ?_ hfirst
  exact resting_after setup []

end Overseer
