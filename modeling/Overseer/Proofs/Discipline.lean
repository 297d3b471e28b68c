import Overseer.Proofs.Evolution
import Overseer.Session.Program

set_option autoImplicit false

/-! # What operations keep to

A discipline says what an operation has to see to at each of its steps, given what it has been
through so far: before it starts a child process, before it waits for a lock, before it gives
one back, and so on. `Prog.Keeps` says of an operation that it keeps to a discipline from some
state on, whatever the others do while it waits, and that it ends with a result, a past and a
state of a given kind.

Sequences are taken apart by `Op.keeps_bind`; for each basic step there is one equation. An
operation that keeps to a stricter discipline also keeps to a looser one (`Prog.Keeps.transfer`):
calls of the checker are studied by themselves and put into the operations that make them. -/

namespace Overseer

/-- What has to be seen to at each step, and how a step is remembered. A wait comes with two
later states: the one in which what was waited for happens, and the one in which the operation
goes on; of a pause or of jobs only the second is told. A lock is given back in the middle of
another operation, so of these two states neither need follow the other. -/
structure Discipline (γ : Type) where
  write : γ → State → State → Prop
  spawn : γ → State → Call → Prop
  answered : γ → State → Call → Except Fault Ended → State → State → γ
  sleep : γ → State → Int → Prop
  slept : γ → State → Int → State → γ
  lock : γ → State → Nat → Prop
  entered : γ → State → Nat → State → State → γ
  unlock : γ → State → Nat → Prop
  left : γ → State → Nat → γ
  gather : γ → State → List Job → Prop
  gathered : γ → State → List Job → State → γ

namespace Prog

variable {α β γ δ : Type}

/-- An operation keeps to a discipline and ends as it should. -/
def Keeps (D : Discipline γ) (Q : α → γ → State → Prop) : Prog α → γ → State → Prop
  | done a, g, s => Q a g s
  | read k, g, s => (k s).Keeps D Q g s
  | write s' k, g, s => D.write g s s' ∧ k.Keeps D Q g s'
  | spawn c k, g, s =>
    D.spawn g s c ∧ ∀ e s₁ s₂, s.Onward s₁ → s₁.Onward s₂ →
      (k e).Keeps D Q (D.answered g s c e s₁ s₂) s₂
  | sleep ms k, g, s =>
    D.sleep g s ms ∧ ∀ s₁, s.Onward s₁ → k.Keeps D Q (D.slept g s ms s₁) s₁
  | lock l k, g, s =>
    D.lock g s l ∧ ∀ s₁ s₂, s.Onward s₁ → s.Onward s₂ → k.Keeps D Q (D.entered g s l s₁ s₂) s₂
  | unlock l k, g, s => D.unlock g s l ∧ k.Keeps D Q (D.left g s l) s
  | gather jobs k, g, s =>
    D.gather g s jobs ∧ ∀ rs s₁, s.Onward s₁ → (k rs).Keeps D Q (D.gathered g s jobs s₁) s₁

variable {D : Discipline γ}

theorem keeps_bind (p : Prog α) (f : α → Prog β) (Q : β → γ → State → Prop) (g : γ) (s : State) :
    (p.bind f).Keeps D Q g s ↔ p.Keeps D (fun a g s => (f a).Keeps D Q g s) g s := by
  induction p generalizing g s with
  | done a => rfl
  | read k ih => exact ih s g s
  | write s' k ih => simp only [bind, Keeps, ih]
  | spawn c k ih => simp only [bind, Keeps, ih]
  | sleep ms k ih => simp only [bind, Keeps, ih]
  | lock l k ih => simp only [bind, Keeps, ih]
  | unlock l k ih => simp only [bind, Keeps, ih]
  | gather jobs k ih => simp only [bind, Keeps, ih]

theorem keeps_seq (p : Prog α) (f : α → Prog β) (Q : β → γ → State → Prop) (g : γ) (s : State) :
    (p >>= f).Keeps D Q g s ↔ p.Keeps D (fun a g s => (f a).Keeps D Q g s) g s :=
  keeps_bind p f Q g s

theorem keeps_return (a : α) (Q : α → γ → State → Prop) (g : γ) (s : State) :
    (pure a : Prog α).Keeps D Q g s ↔ Q a g s := Iff.rfl

/-- An operation that keeps to one discipline keeps to another one, if each duty of the second
follows from the same duty of the first and the two pasts stay related. -/
theorem Keeps.transfer {D' : Discipline δ} {R : γ → δ → State → Prop}
    (hwrite : ∀ g d s s', R g d s → D.write g s s' → D'.write d s s' ∧ R g d s')
    (hspawn : ∀ g d s c, R g d s → D.spawn g s c → D'.spawn d s c ∧
      ∀ e s₁ s₂, s.Onward s₁ → s₁.Onward s₂ →
        R (D.answered g s c e s₁ s₂) (D'.answered d s c e s₁ s₂) s₂)
    (hsleep : ∀ g d s ms, R g d s → D.sleep g s ms → D'.sleep d s ms ∧
      ∀ s₁, s.Onward s₁ → R (D.slept g s ms s₁) (D'.slept d s ms s₁) s₁)
    (hlock : ∀ g d s l, R g d s → D.lock g s l → D'.lock d s l ∧
      ∀ s₁ s₂, s.Onward s₁ → s.Onward s₂ → R (D.entered g s l s₁ s₂) (D'.entered d s l s₁ s₂) s₂)
    (hunlock : ∀ g d s l, R g d s → D.unlock g s l →
      D'.unlock d s l ∧ R (D.left g s l) (D'.left d s l) s)
    (hgather : ∀ g d s jobs, R g d s → D.gather g s jobs → D'.gather d s jobs ∧
      ∀ s₁, s.Onward s₁ → R (D.gathered g s jobs s₁) (D'.gathered d s jobs s₁) s₁)
    {p : Prog α} {Q : α → γ → State → Prop} {g : γ} {d : δ} {s : State}
    (h : p.Keeps D Q g s) (hR : R g d s) :
    p.Keeps D' (fun a d s => ∃ g, R g d s ∧ Q a g s) d s := by
  induction p generalizing g d s with
  | done a => exact ⟨g, hR, h⟩
  | read k ih => exact ih s h hR
  | write s' k ih =>
    obtain ⟨hduty, hrest⟩ := h
    obtain ⟨hduty', hR'⟩ := hwrite g d s s' hR hduty
    exact ⟨hduty', ih hrest hR'⟩
  | spawn c k ih =>
    obtain ⟨hduty, hrest⟩ := h
    obtain ⟨hduty', hR'⟩ := hspawn g d s c hR hduty
    exact ⟨hduty', fun e s₁ s₂ h₁ h₂ => ih e (hrest e s₁ s₂ h₁ h₂) (hR' e s₁ s₂ h₁ h₂)⟩
  | sleep ms k ih =>
    obtain ⟨hduty, hrest⟩ := h
    obtain ⟨hduty', hR'⟩ := hsleep g d s ms hR hduty
    exact ⟨hduty', fun s₁ h₁ => ih (hrest s₁ h₁) (hR' s₁ h₁)⟩
  | lock l k ih =>
    obtain ⟨hduty, hrest⟩ := h
    obtain ⟨hduty', hR'⟩ := hlock g d s l hR hduty
    exact ⟨hduty', fun s₁ s₂ h₁ h₂ => ih (hrest s₁ s₂ h₁ h₂) (hR' s₁ s₂ h₁ h₂)⟩
  | unlock l k ih =>
    obtain ⟨hduty, hrest⟩ := h
    obtain ⟨hduty', hR'⟩ := hunlock g d s l hR hduty
    exact ⟨hduty', ih hrest hR'⟩
  | gather jobs k ih =>
    obtain ⟨hduty, hrest⟩ := h
    obtain ⟨hduty', hR'⟩ := hgather g d s jobs hR hduty
    exact ⟨hduty', fun rs s₁ h₁ => ih rs (hrest rs s₁ h₁) (hR' s₁ h₁)⟩

theorem Keeps.mono {p : Prog α} {Q Q' : α → γ → State → Prop} {g : γ} {s : State}
    (h : p.Keeps D Q g s) (hQ : ∀ a g s, Q a g s → Q' a g s) : p.Keeps D Q' g s := by
  induction p generalizing g s with
  | done a => exact hQ a g s h
  | read k ih => exact ih s h
  | write s' k ih => exact ⟨h.1, ih h.2⟩
  | spawn c k ih => exact ⟨h.1, fun e s₁ s₂ h₁ h₂ => ih e (h.2 e s₁ s₂ h₁ h₂)⟩
  | sleep ms k ih => exact ⟨h.1, fun s₁ h₁ => ih (h.2 s₁ h₁)⟩
  | lock l k ih => exact ⟨h.1, fun s₁ s₂ h₁ h₂ => ih (h.2 s₁ s₂ h₁ h₂)⟩
  | unlock l k ih => exact ⟨h.1, ih h.2⟩
  | gather jobs k ih => exact ⟨h.1, fun rs s₁ h₁ => ih rs (h.2 rs s₁ h₁)⟩

end Prog

namespace Op

variable {α β γ : Type} {D : Discipline γ} {g : γ} {s : State}

/-- An operation that may stop with a fault keeps to a discipline. -/
def Keeps (D : Discipline γ) (Q : Except Fault α → γ → State → Prop) (p : Op α) (g : γ)
    (s : State) : Prop :=
  p.run.Keeps D Q g s

/-- What is wanted behind the first part of a sequence: a fault ends the sequence. -/
def Next (D : Discipline γ) (f : α → Op β) (Q : Except Fault β → γ → State → Prop) :
    Except Fault α → γ → State → Prop
  | .ok a, g, s => (f a).Keeps D Q g s
  | .error e, g, s => Q (.error e) g s

@[simp] theorem next_ok (f : α → Op β) (Q : Except Fault β → γ → State → Prop) (a : α) :
    Next D f Q (.ok a) g s ↔ (f a).Keeps D Q g s := Iff.rfl

@[simp] theorem next_error (f : α → Op β) (Q : Except Fault β → γ → State → Prop) (e : Fault) :
    Next D f Q (.error e) g s ↔ Q (.error e) g s := Iff.rfl

theorem keeps_bind (x : Op α) (f : α → Op β) (Q : Except Fault β → γ → State → Prop) :
    (x >>= f).Keeps D Q g s ↔ x.Keeps D (Next D f Q) g s := by
  have hrun : (x >>= f).run = x.run.bind (ExceptT.bindCont f) := rfl
  rw [Keeps, hrun, Prog.keeps_bind, Keeps]
  have hnext : (fun r g s => Prog.Keeps D Q (ExceptT.bindCont f r) g s) = Next D f Q := by
    funext r g s
    cases r <;> rfl
  exact iff_of_eq (congrArg (fun Q => Prog.Keeps D Q x.run g s) hnext)

theorem keeps_iff_run (p : Op α) (Q : Except Fault α → γ → State → Prop) :
    p.Keeps D Q g s ↔ p.run.Keeps D Q g s := Iff.rfl

theorem Keeps.mono {p : Op α} {Q Q' : Except Fault α → γ → State → Prop}
    (h : p.Keeps D Q g s) (hQ : ∀ r g s, Q r g s → Q' r g s) : p.Keeps D Q' g s :=
  Prog.Keeps.mono h hQ

/-! ## Basic steps -/

variable {Q : Except Fault α → γ → State → Prop}

@[simp] theorem keeps_pure (a : α) : (pure a : Op α).Keeps D Q g s ↔ Q (.ok a) g s := Iff.rfl

@[simp] theorem keeps_throw (e : Fault) : (throw e : Op α).Keeps D Q g s ↔ Q (.error e) g s :=
  Iff.rfl

@[simp] theorem keeps_state (Q : Except Fault State → γ → State → Prop) :
    state.Keeps D Q g s ↔ Q (.ok s) g s := Iff.rfl

@[simp] theorem keeps_modify (f : State → State) (Q : Except Fault Unit → γ → State → Prop) :
    (modify f).Keeps D Q g s ↔ D.write g s (f s) ∧ Q (.ok ()) g (f s) := Iff.rfl

@[simp] theorem keeps_log (level : LogLevel) (source : LogSource) (text : String)
    (Q : Except Fault Unit → γ → State → Prop) :
    (log level source text).Keeps D Q g s ↔
      D.write g s (s.record ⟨level, source, text⟩) ∧
        Q (.ok ()) g (s.record ⟨level, source, text⟩) := Iff.rfl

@[simp] theorem keeps_workspace (n : Nat) (Q : Except Fault Workspace → γ → State → Prop) :
    (workspace n).Keeps D Q g s ↔ Q (.ok (s.workspace n)) g s := Iff.rfl

@[simp] theorem keeps_isRemoved (n : Nat) (Q : Except Fault Bool → γ → State → Prop) :
    (isRemoved n).Keeps D Q g s ↔ Q (.ok (s.isRemoved n)) g s := Iff.rfl

@[simp] theorem keeps_look (f : World → Except Fault α) :
    (look f).Keeps D Q g s ↔ Q (f s.world) g s := by
  rw [look, keeps_bind, keeps_state, next_ok]
  cases f s.world <;> rfl

@[simp] theorem keeps_act (a : Act α) :
    (act a).Keeps D Q g s ↔
      D.write g s { s with world := (a.exec s.world).2 } ∧
        Q (a.exec s.world).1 g { s with world := (a.exec s.world).2 } := by
  rw [act, keeps_bind, keeps_state, next_ok, keeps_bind, keeps_modify, next_ok]
  cases (a.exec s.world).1 <;> rfl

@[simp] theorem keeps_spawn (c : Call) (Q : Except Fault Ended → γ → State → Prop) :
    (spawn c).Keeps D Q g s ↔
      D.spawn g s c ∧ ∀ e s₁ s₂, s.Onward s₁ → s₁.Onward s₂ →
        Q e (D.answered g s c e s₁ s₂) s₂ := Iff.rfl

@[simp] theorem keeps_sleep (ms : Int) (Q : Except Fault Unit → γ → State → Prop) :
    (sleep ms).Keeps D Q g s ↔
      D.write g s (s.slept ms) ∧ D.sleep g (s.slept ms) ms ∧
        ∀ s₁, (s.slept ms).Onward s₁ → Q (.ok ()) (D.slept g (s.slept ms) ms s₁) s₁ := Iff.rfl

@[simp] theorem keeps_gather (jobs : List Job)
    (Q : Except Fault (List (Except Fault CheckResult)) → γ → State → Prop) :
    (gather jobs).Keeps D Q g s ↔
      D.gather g s jobs ∧ ∀ rs s₁, s.Onward s₁ → Q (.ok rs) (D.gathered g s jobs s₁) s₁ := Iff.rfl

theorem keeps_attempt (p : Op α) (Q : Except Fault (Except Fault α) → γ → State → Prop) :
    (attempt p).Keeps D Q g s ↔ p.Keeps D (fun r g s => Q (.ok r) g s) g s :=
  Prog.keeps_bind p.run _ Q g s

theorem keeps_withLock (l : Nat) (p : Op α) :
    (withLock l p).Keeps D Q g s ↔
      D.lock g s l ∧ ∀ s₁ s₂, s.Onward s₁ → s.Onward s₂ →
        p.Keeps D (fun r g s => D.unlock g s l ∧ Q r (D.left g s l) s)
          (D.entered g s l s₁ s₂) s₂ := by
  show Prog.Keeps D Q (.lock l (p.run.bind fun r => .unlock l (.done r))) g s ↔ _
  simp only [Prog.Keeps, Prog.keeps_bind, Keeps]

-- operations are taken apart by the equations above, never by running them
attribute [irreducible] Keeps Next

end Op

end Overseer
