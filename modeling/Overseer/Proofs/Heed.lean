import Overseer.Proofs.Accord

set_option autoImplicit false

/-! # What tasks see to for others

A rule says what a task counts on while it waits, what it may write, and what it owes whenever it
waits or ends, in terms of its story. `Prog.Heeds` says of the rest of a task that it heeds a rule,
as long as the others do what it counts on. The refusal of a child process comes at once, before
anybody else does something.

Sequences are taken apart by `Op.heeds_bind`; for each basic step there is one equation. -/

namespace Overseer

open History

/-- What a task counts on, what it may write and what it owes when it waits or ends. -/
structure Rule where
  rely : State → State → Prop
  write : State → State → Prop
  duty : History → State → Happening → Prop

namespace Prog

variable {α β : Type} {R : Rule} {i : TaskId}

/-- The rest of a task heeds a rule and ends as it should. -/
def Heeds (R : Rule) (i : TaskId) (Q : α → History → State → Prop) :
    Prog α → History → State → Prop
  | done a, h, s => Q a h s
  | read k, h, s => (k s).Heeds R i Q h s
  | write s' k, h, s => R.write s s' ∧ k.Heeds R i Q h s'
  | spawn c k, h, s => R.duty h s (.spawned c) ∧
      (∀ e, (k (.error e)).Heeds R i Q (⟨i, .resumed, s⟩ :: ⟨i, .returned (.error e), s⟩ ::
        ⟨i, .spawned c, s⟩ :: h) s) ∧
      ∀ ended s₁ s₂, s.Onward s₂ → R.rely s s₂ → (k (.ok ended)).Heeds R i Q (⟨i, .resumed, s₂⟩ ::
        ⟨i, .returned (.ok ended), s₁⟩ :: ⟨i, .spawned c, s⟩ :: h) s₂
  | sleep ms k, h, s => R.duty h s (.slept ms) ∧ ∀ s₁, s.Onward s₁ → R.rely s s₁ →
      k.Heeds R i Q (⟨i, .resumed, s₁⟩ :: ⟨i, .slept ms, s⟩ :: h) s₁
  | lock l k, h, s => R.duty h s (.reached l) ∧ ∀ s₁ s₂, s.Onward s₂ → R.rely s s₂ →
      k.Heeds R i Q (⟨i, .resumed, s₂⟩ :: ⟨i, .entered l, s₁⟩ :: ⟨i, .reached l, s⟩ :: h) s₂
  | unlock l k, h, s => k.Heeds R i Q (⟨i, .left l, s⟩ :: h) s
  | gather jobs k, h, s => R.duty h s (.gathered jobs) ∧ ∀ rs s₁, s.Onward s₁ → R.rely s s₁ →
      (k rs).Heeds R i Q (⟨i, .resumed, s₁⟩ :: ⟨i, .gathered jobs, s⟩ :: h) s₁

theorem heeds_bind (p : Prog α) (f : α → Prog β) (Q : β → History → State → Prop) (h : History)
    (s : State) : (p.bind f).Heeds R i Q h s ↔
      p.Heeds R i (fun a h s => (f a).Heeds R i Q h s) h s := by
  induction p generalizing h s with
  | done a => rfl
  | read k ih => exact ih s h s
  | write s' k ih => simp only [bind, Heeds, ih]
  | spawn c k ih => simp only [bind, Heeds, ih]
  | sleep ms k ih => simp only [bind, Heeds, ih]
  | lock l k ih => simp only [bind, Heeds, ih]
  | unlock l k ih => simp only [bind, Heeds, ih]
  | gather jobs k ih => simp only [bind, Heeds, ih]

theorem heeds_seq (p : Prog α) (f : α → Prog β) (Q : β → History → State → Prop) (h : History)
    (s : State) : (p >>= f).Heeds R i Q h s ↔
      p.Heeds R i (fun a h s => (f a).Heeds R i Q h s) h s :=
  heeds_bind p f Q h s

theorem heeds_return (a : α) (Q : α → History → State → Prop) (h : History) (s : State) :
    (pure a : Prog α).Heeds R i Q h s ↔ Q a h s := Iff.rfl

theorem Heeds.mono {p : Prog α} {Q Q' : α → History → State → Prop} {h : History} {s : State}
    (hp : p.Heeds R i Q h s) (hQ : ∀ a h s, Q a h s → Q' a h s) : p.Heeds R i Q' h s := by
  induction p generalizing h s with
  | done a => exact hQ a h s hp
  | read k ih => exact ih s hp
  | write s' k ih => exact ⟨hp.1, ih hp.2⟩
  | spawn c k ih =>
    exact ⟨hp.1, fun e => ih _ (hp.2.1 e), fun ended s₁ s₂ h₁ h₂ => ih _ (hp.2.2 ended s₁ s₂ h₁ h₂)⟩
  | sleep ms k ih => exact ⟨hp.1, fun s₁ h₁ h₂ => ih (hp.2 s₁ h₁ h₂)⟩
  | lock l k ih => exact ⟨hp.1, fun s₁ s₂ h₁ h₂ => ih (hp.2 s₁ s₂ h₁ h₂)⟩
  | unlock l k ih => exact ih hp
  | gather jobs k ih => exact ⟨hp.1, fun rs s₁ h₁ h₂ => ih rs (hp.2 rs s₁ h₁ h₂)⟩

end Prog

namespace Op

variable {α β : Type} {R : Rule} {i : TaskId} {h : History} {s : State}

/-- An operation that may stop with a fault heeds a rule. -/
def Heeds (R : Rule) (i : TaskId) (Q : Except Fault α → History → State → Prop) (p : Op α)
    (h : History) (s : State) : Prop :=
  p.run.Heeds R i Q h s

/-- What is wanted behind the first part of a sequence: a fault ends the sequence. -/
def Hence (R : Rule) (i : TaskId) (f : α → Op β) (Q : Except Fault β → History → State → Prop) :
    Except Fault α → History → State → Prop
  | .ok a, h, s => (f a).Heeds R i Q h s
  | .error e, h, s => Q (.error e) h s

@[simp] theorem hence_ok (f : α → Op β) (Q : Except Fault β → History → State → Prop) (a : α) :
    Hence R i f Q (.ok a) h s ↔ (f a).Heeds R i Q h s := Iff.rfl

@[simp] theorem hence_error (f : α → Op β) (Q : Except Fault β → History → State → Prop)
    (e : Fault) : Hence R i f Q (.error e) h s ↔ Q (.error e) h s := Iff.rfl

theorem heeds_bind (x : Op α) (f : α → Op β) (Q : Except Fault β → History → State → Prop) :
    (x >>= f).Heeds R i Q h s ↔ x.Heeds R i (Hence R i f Q) h s := by
  have hrun : (x >>= f).run = x.run.bind (ExceptT.bindCont f) := rfl
  rw [Heeds, hrun, Prog.heeds_bind, Heeds]
  have hhence : (fun r h s => (ExceptT.bindCont f r).Heeds R i Q h s) = Hence R i f Q := by
    funext r h s
    cases r <;> rfl
  exact iff_of_eq (congrArg (fun Q => Prog.Heeds R i Q x.run h s) hhence)

theorem heeds_iff_run (p : Op α) (Q : Except Fault α → History → State → Prop) :
    p.Heeds R i Q h s ↔ p.run.Heeds R i Q h s := Iff.rfl

theorem Heeds.mono {p : Op α} {Q Q' : Except Fault α → History → State → Prop}
    (hp : p.Heeds R i Q h s) (hQ : ∀ r h s, Q r h s → Q' r h s) : p.Heeds R i Q' h s :=
  Prog.Heeds.mono hp hQ

/-! ## Basic steps -/

variable {Q : Except Fault α → History → State → Prop}

@[simp] theorem heeds_pure (a : α) : (pure a : Op α).Heeds R i Q h s ↔ Q (.ok a) h s := Iff.rfl

@[simp] theorem heeds_throw (e : Fault) : (throw e : Op α).Heeds R i Q h s ↔ Q (.error e) h s :=
  Iff.rfl

@[simp] theorem heeds_state (Q : Except Fault State → History → State → Prop) :
    state.Heeds R i Q h s ↔ Q (.ok s) h s := Iff.rfl

@[simp] theorem heeds_modify (f : State → State) (Q : Except Fault Unit → History → State → Prop) :
    (modify f).Heeds R i Q h s ↔ R.write s (f s) ∧ Q (.ok ()) h (f s) := Iff.rfl

@[simp] theorem heeds_log (level : LogLevel) (source : LogSource) (text : String)
    (Q : Except Fault Unit → History → State → Prop) :
    (log level source text).Heeds R i Q h s ↔
      R.write s (s.record ⟨level, source, text⟩) ∧
        Q (.ok ()) h (s.record ⟨level, source, text⟩) := Iff.rfl

@[simp] theorem heeds_workspace (n : Nat) (Q : Except Fault Workspace → History → State → Prop) :
    (workspace n).Heeds R i Q h s ↔ Q (.ok (s.workspace n)) h s := Iff.rfl

@[simp] theorem heeds_isRemoved (n : Nat) (Q : Except Fault Bool → History → State → Prop) :
    (isRemoved n).Heeds R i Q h s ↔ Q (.ok (s.isRemoved n)) h s := Iff.rfl

@[simp] theorem heeds_look (f : World → Except Fault α) :
    (look f).Heeds R i Q h s ↔ Q (f s.world) h s := by
  rw [look, heeds_bind, heeds_state, hence_ok]
  cases f s.world <;> rfl

@[simp] theorem heeds_act (a : Act α) :
    (act a).Heeds R i Q h s ↔
      R.write s { s with world := (a.exec s.world).2 } ∧
        Q (a.exec s.world).1 h { s with world := (a.exec s.world).2 } := by
  rw [act, heeds_bind, heeds_state, hence_ok, heeds_bind, heeds_modify, hence_ok]
  cases (a.exec s.world).1 <;> rfl

theorem heeds_spawn (c : Call) (Q : Except Fault Ended → History → State → Prop) :
    (spawn c).Heeds R i Q h s ↔ R.duty h s (.spawned c) ∧
      (∀ e, Q (.error e) (⟨i, .resumed, s⟩ :: ⟨i, .returned (.error e), s⟩ ::
        ⟨i, .spawned c, s⟩ :: h) s) ∧
      ∀ ended s₁ s₂, s.Onward s₂ → R.rely s s₂ → Q (.ok ended) (⟨i, .resumed, s₂⟩ ::
        ⟨i, .returned (.ok ended), s₁⟩ :: ⟨i, .spawned c, s⟩ :: h) s₂ := Iff.rfl

theorem heeds_sleep (ms : Int) (Q : Except Fault Unit → History → State → Prop) :
    (sleep ms).Heeds R i Q h s ↔ R.write s (s.slept ms) ∧ R.duty h (s.slept ms) (.slept ms) ∧
      ∀ s₁, (s.slept ms).Onward s₁ → R.rely (s.slept ms) s₁ →
        Q (.ok ()) (⟨i, .resumed, s₁⟩ :: ⟨i, .slept ms, s.slept ms⟩ :: h) s₁ := by
  rw [sleep, heeds_bind, heeds_modify, hence_ok]
  rfl

theorem heeds_gather (jobs : List Job)
    (Q : Except Fault (List (Except Fault CheckResult)) → History → State → Prop) :
    (gather jobs).Heeds R i Q h s ↔ R.duty h s (.gathered jobs) ∧ ∀ rs s₁, s.Onward s₁ →
      R.rely s s₁ → Q (.ok rs) (⟨i, .resumed, s₁⟩ :: ⟨i, .gathered jobs, s⟩ :: h) s₁ := Iff.rfl

theorem heeds_attempt (p : Op α) (Q : Except Fault (Except Fault α) → History → State → Prop) :
    (attempt p).Heeds R i Q h s ↔ p.Heeds R i (fun r h s => Q (.ok r) h s) h s :=
  Prog.heeds_bind p.run _ Q h s

theorem heeds_withLock (l : Nat) (p : Op α) :
    (withLock l p).Heeds R i Q h s ↔ R.duty h s (.reached l) ∧
      ∀ s₁ s₂, s.Onward s₂ → R.rely s s₂ →
        p.Heeds R i (fun r h s => Q r (⟨i, .left l, s⟩ :: h) s)
          (⟨i, .resumed, s₂⟩ :: ⟨i, .entered l, s₁⟩ :: ⟨i, .reached l, s⟩ :: h) s₂ := by
  show Prog.Heeds R i Q (.lock l (p.run.bind fun r => .unlock l (.done r))) h s ↔ _
  simp only [Prog.Heeds, Prog.heeds_bind, Heeds]

-- operations are taken apart by the equations above, never by running them
attribute [irreducible] Heeds Hence

end Op

end Overseer
